import Ece344Lab.Warmup.WordCount
import Ece344Lab.Webserver.HashTableFacts
import Mathlib.Data.List.DropRight

set_option autoImplicit false

/- Which words `wc.c` counts. -/
namespace Ece344Lab.Warmup

open Bytes Webserver Chained

/-- The words of a text in their order: its longest runs without white space. -/
def words (wordArray : List Byte) : List (List Byte) := (wordArray.splitOnP isSpace).filter (· ≠ [])

/-- The words with white space behind them. -/
def closedWords (wordArray : List Byte) : List (List Byte) :=
  (wordArray.splitOnP isSpace).dropLast.filter (· ≠ [])

def wordCount (wc : Wc) (word : List Byte) : Option Nat :=
  (hashTableFind wc.hashTable word).map fun i => wc.wordCounts.getD i 0

def entries (wc : Wc) : List (List Byte × Nat) :=
  let chains (buffer : BucketBuffer Nat) := (List.range buffer.size).flatMap buffer.list
  (chains wc.hashTable.mainBuffer ++ wc.hashTable.subBuffer.elim [] chains).map fun entry =>
    (entry.first, wc.wordCounts.getD entry.second 0)

/-- The table holds the distinct words of a list with their counts, and each is printed once. -/
structure Counts (wc : Wc) (ws : List (List Byte)) : Prop where
  finds : ∀ w, wordCount wc w = if w ∈ ws then some (ws.count w) else none
  entries : (entries wc).Perm (ws.dedup.map fun w => (w, ws.count w))
  output : ∃ lines : List (List Byte), lines.Perm (ws.dedup.map fun w => wordLine w (ws.count w)) ∧
    wcOutput wc = lines.flatten

section Tally

/-- The state of the table after the words `ws`. The keys are the distinct words in the order in
which they came, which is that of their counts. -/
structure Tallied (wc : Wc) (keys ws : List (List Byte)) : Prop where
  nodup : keys.Nodup
  mem : ∀ k, k ∈ keys ↔ k ∈ ws
  alone : wc.hashTable.subBuffer = none
  size : wc.hashTable.mainBuffer.size = hashtableIncrementSize
  number : wc.hashTable.mainBuffer.bucketNumber = keys.length
  placed : wc.hashTable.mainBuffer.Placed
  pair : ∀ k, wc.hashTable.mainBuffer.pair k = if k ∈ keys then some ⟨k, keys.idxOf k⟩ else none
  counts : wc.wordCounts = keys.map fun k => ws.count k

variable {wc : Wc} {keys ws : List (List Byte)}

theorem tallied_new : Tallied ⟨hashTableNew, []⟩ [] [] where
  nodup := List.nodup_nil
  mem _ := Iff.rfl
  alone := rfl
  size := rfl
  number := rfl
  placed := placed_empty
  pair _ := rfl
  counts := rfl

namespace Tallied

theorem find (tallied : Tallied wc keys ws) (k : List Byte) :
    hashTableFind wc.hashTable k = if k ∈ keys then some (keys.idxOf k) else none := by
  rw [hashTableFind_eq, HashTable.pair, tallied.pair, tallied.alone]
  by_cases known : k ∈ keys
  · rw [if_pos known, if_pos known]
    rfl
  · rw [if_neg known, if_neg known]
    rfl

theorem count (tallied : Tallied wc keys ws) {k : List Byte} (known : k ∈ keys) :
    wc.wordCounts.getD (keys.idxOf k) 0 = ws.count k := by
  have inside := List.idxOf_lt_length_of_mem known
  rw [tallied.counts, List.getD_eq_getElem?_getD, List.getElem?_map,
    List.getElem?_eq_getElem inside, List.getElem_idxOf inside]
  rfl

/-- A new word gets a bucket of its own. -/
theorem insert (tallied : Tallied wc keys ws) {w : List Byte} (new : w ∉ keys)
    (few : keys.length + 1 < 2 ^ 29) :
    ∃ wc', countWord wc w = .ok wc' ∧ Tallied wc' (keys ++ [w]) (ws ++ [w]) := by
  let entry : Pair Nat := ⟨w, wc.wordCounts.length⟩
  have absent : wc.hashTable.mainBuffer.pair entry.first = none := by
    rw [tallied.pair, if_neg new]
  have size := tallied.size
  have number := tallied.number
  have small : ¬ wc.hashTable.mainBuffer.size ≤ 2 * (wc.hashTable.mainBuffer.bucketNumber + 1) := by
    rw [size, number]
    change ¬ 1073741824 ≤ _
    omega
  have missing : hashTableFind wc.hashTable w = none := by rw [tallied.find, if_neg new]
  unfold countWord hashTableInsert
  rw [missing]
  dsimp only
  rw [show hashTableReallocate ⟨_, wc.hashTable.subBuffer⟩ = ⟨_, wc.hashTable.subBuffer⟩ by
    unfold hashTableReallocate
    rw [tallied.alone]]
  rw [if_neg small]
  refine ⟨_, rfl, ?_, ?_, tallied.alone, size, ?_, tallied.placed.push absent, ?_, ?_⟩
  · exact List.nodup_append.mpr ⟨tallied.nodup, List.nodup_singleton w, by
      intro k member k' single same
      rw [List.mem_singleton.mp single] at same
      exact new (same ▸ member)⟩
  · intro k
    rw [List.mem_append, List.mem_append, tallied.mem]
  · rw [List.length_append, List.length_singleton, ← number]
  · intro k
    apply (find_push absent k).trans
    by_cases same : k = w
    · subst same
      have last : wc.wordCounts.length = keys.length := by rw [tallied.counts, List.length_map]
      rw [if_pos rfl, if_pos (List.mem_append_right _ List.mem_cons_self),
        List.idxOf_append_of_notMem new, List.idxOf_cons_self, Nat.add_zero, ← last]
    · rw [if_neg same]
      refine (tallied.pair k).trans ?_
      by_cases known : k ∈ keys
      · rw [if_pos known, if_pos (List.mem_append_left _ known), List.idxOf_append_of_mem known]
      · rw [if_neg known, if_neg]
        rw [List.mem_append, List.mem_singleton]
        exact not_or.mpr ⟨known, same⟩
  · dsimp only
    rw [tallied.counts, List.map_append]
    congr 1
    · apply List.map_congr_left
      intro k member
      have other : k ∉ [w] := by
        rw [List.mem_singleton]
        intro same
        exact new (same ▸ member)
      rw [List.count_append, List.count_eq_zero_of_not_mem other, Nat.add_zero]
    · have fresh : w ∉ ws := fun member => new ((tallied.mem w).mpr member)
      rw [List.map_singleton, List.count_append, List.count_eq_zero_of_not_mem fresh,
        List.count_singleton_self]

theorem increment (tallied : Tallied wc keys ws) {w : List Byte} (known : w ∈ keys) :
    ∃ wc', countWord wc w = .ok wc' ∧ Tallied wc' keys (ws ++ [w]) := by
  have found : hashTableFind wc.hashTable w = some (keys.idxOf w) := by
    rw [tallied.find, if_pos known]
  unfold countWord
  rw [found]
  refine ⟨_, rfl, tallied.nodup, ?_, tallied.alone, tallied.size, tallied.number, tallied.placed,
    tallied.pair, ?_⟩
  · intro k
    rw [tallied.mem, List.mem_append, List.mem_singleton]
    constructor
    · exact Or.inl
    · rintro (seen | rfl)
      · exact seen
      · exact (tallied.mem k).mp known
  · apply List.ext_getElem
    · simp [tallied.counts]
    · intro i left right
      have inside : i < keys.length := by simpa using right
      rw [List.getElem_modify, List.getElem_map, List.count_append, List.count_singleton]
      simp only [tallied.counts, List.getElem_map]
      by_cases same : keys.idxOf w = i
      · subst same
        rw [if_pos rfl, if_pos (by rw [List.getElem_idxOf, beq_self_eq_true])]
      · rw [if_neg same, if_neg, Nat.add_zero]
        intro equal
        apply same
        rw [eq_of_beq equal]
        exact tallied.nodup.idxOf_getElem i inside

theorem length_le (tallied : Tallied wc keys ws) {all : List (List Byte)}
    (part : ∀ w ∈ ws, w ∈ all) : keys.length ≤ all.dedup.length := by
  apply List.Subperm.length_le
  apply List.subperm_of_subset tallied.nodup
  intro k member
  exact List.mem_dedup.mpr (part k ((tallied.mem k).mp member))

theorem countWord (tallied : Tallied wc keys ws) (w : List Byte)
    (few : (ws ++ [w]).dedup.length < 2 ^ 29) :
    ∃ wc' keys', Warmup.countWord wc w = .ok wc' ∧ Tallied wc' keys' (ws ++ [w]) := by
  by_cases known : w ∈ keys
  · obtain ⟨wc', run, tallied'⟩ := tallied.increment known
    exact ⟨wc', keys, run, tallied'⟩
  · have fits : keys.length + 1 ≤ (ws ++ [w]).dedup.length := by
      have distinct : (w :: keys).Nodup := List.nodup_cons.mpr ⟨known, tallied.nodup⟩
      apply (List.subperm_of_subset distinct _).length_le
      intro k member
      rw [List.mem_dedup, List.mem_append]
      cases List.mem_cons.mp member with
      | inl same => exact Or.inr (List.mem_singleton.mpr same)
      | inr old => exact Or.inl ((tallied.mem k).mp old)
    obtain ⟨wc', run, tallied'⟩ := tallied.insert known (by omega)
    exact ⟨wc', keys ++ [w], run, tallied'⟩

/-- The words of a whole list are counted. -/
theorem foldlM (more : List (List Byte)) : ∀ {wc : Wc} {keys ws : List (List Byte)},
    Tallied wc keys ws → (ws ++ more).dedup.length < 2 ^ 29 →
    ∃ wc' keys', more.foldlM Warmup.countWord wc = .ok wc' ∧ Tallied wc' keys' (ws ++ more) := by
  induction more with
  | nil =>
      intro wc keys ws tallied _
      rw [List.append_nil]
      exact ⟨wc, keys, rfl, tallied⟩
  | cons w more ih =>
      intro wc keys ws tallied few
      have shape : ws ++ w :: more = ws ++ [w] ++ more := by simp
      rw [shape] at few ⊢
      have part : (ws ++ [w]).dedup.length ≤ (ws ++ [w] ++ more).dedup.length := by
        apply (List.subperm_of_subset (List.nodup_dedup _) _).length_le
        intro k member
        rw [List.mem_dedup] at member ⊢
        exact List.mem_append_left _ member
      obtain ⟨wc', keys', run, tallied'⟩ := tallied.countWord w (by omega)
      obtain ⟨wc'', keys'', rest, tallied''⟩ := ih tallied' few
      refine ⟨wc'', keys'', ?_, tallied''⟩
      rw [List.foldlM_cons, run]
      exact rest

theorem chains (tallied : Tallied wc keys ws) :
    ∃ order : List (List Byte), order.Perm ws.dedup ∧
      ((List.range wc.hashTable.mainBuffer.size).flatMap wc.hashTable.mainBuffer.list) =
        order.map fun k => ⟨k, keys.idxOf k⟩ := by
  have positive : 0 < wc.hashTable.mainBuffer.size := by
    rw [tallied.size]
    decide
  have fits : wc.hashTable.mainBuffer.size < 2 ^ 64 := by
    rw [tallied.size]
    decide
  have bound := fun k => strHash_lt k positive fits
  have mem := tallied.placed.mem_flatMap bound
  generalize pairs :
    (List.range wc.hashTable.mainBuffer.size).flatMap wc.hashTable.mainBuffer.list = all at mem
  have shape : ∀ a ∈ all, a.first ∈ keys ∧ a = ⟨a.first, keys.idxOf a.first⟩ := by
    intro a member
    have found := (mem a).mp member
    have pair := tallied.pair a.first
    by_cases known : a.first ∈ keys
    · rw [if_pos known] at pair
      exact ⟨known, Option.some.inj (found.symm.trans pair)⟩
    · rw [if_neg known] at pair
      cases found.symm.trans pair
  refine ⟨all.map Pair.first, ?_, ?_⟩
  · rw [List.perm_ext_iff_of_nodup (pairs ▸ tallied.placed.nodup_keys _) ws.nodup_dedup]
    intro k
    rw [List.mem_map, List.mem_dedup, ← tallied.mem]
    constructor
    · rintro ⟨a, member, rfl⟩
      exact (shape a member).1
    · intro known
      refine ⟨⟨k, keys.idxOf k⟩, (mem _).mpr ?_, rfl⟩
      exact (tallied.pair k).trans (if_pos known)
  · rw [List.map_map]
    apply List.ext_getElem (by simp)
    intro i inside _
    rw [List.getElem_map]
    exact (shape _ (List.getElem_mem inside)).2

/-- What the table says of the words that it has been given. -/
theorem result (tallied : Tallied wc keys ws) : Counts wc ws := by
  obtain ⟨order, perm, chains⟩ := tallied.chains
  have counted : ∀ k ∈ order, wc.wordCounts.getD (keys.idxOf k) 0 = ws.count k := by
    intro k member
    exact tallied.count ((tallied.mem k).mpr (List.mem_dedup.mp (perm.subset member)))
  constructor
  · intro w
    unfold wordCount
    rw [tallied.find]
    by_cases known : w ∈ keys
    · rw [if_pos known, if_pos ((tallied.mem w).mp known), Option.map_some, tallied.count known]
    · rw [if_neg known, if_neg fun member => known ((tallied.mem w).mpr member)]
      rfl
  · unfold entries
    dsimp only
    rw [tallied.alone, chains, Option.elim_none, List.append_nil, List.map_map]
    apply List.Perm.trans _ (perm.map _)
    apply List.Perm.of_eq
    apply List.map_congr_left
    intro k member
    exact Prod.ext rfl (counted k member)
  · refine ⟨order.map fun w => wordLine w (ws.count w), perm.map _, ?_⟩
    unfold wcOutput bufferOutput
    rw [tallied.alone, List.append_nil, ← List.flatMap_assoc, chains, List.flatMap_map,
      ← List.flatMap_def]
    apply List.flatMap_congr
    intro k member
    rw [counted k member]

end Tallied

end Tally

section Scan

variable {wordArray rest cur : List Byte} {c : Byte} {counter source wordSize : Nat}

/-- Where the loop stands in a text: `cur` is the part of a word that it has passed, and behind
white space the source has passed all of it. -/
def At (wordArray cur : List Byte) (counter source wordSize : Nat) : Prop :=
  (source + wordSize = counter ∧ (wordArray.drop source).take wordSize = cur) ∨
    (wordSize = 0 ∧ cur = [] ∧ source = skipSpaces wordArray counter)

theorem At.take (here : At wordArray cur counter source wordSize) :
    (wordArray.drop source).take wordSize = cur := by
  rcases here with ⟨_, same⟩ | ⟨rfl, rfl, _⟩
  · exact same
  · exact List.take_zero

theorem At.inputWord (here : At wordArray cur counter source wordSize) (nulFree : 0 ∉ wordArray) :
    inputWord wordArray source wordSize = cur := by
  unfold Warmup.inputWord
  rw [← here.take, List.takeWhile_eq_self_iff]
  intro c member
  apply decide_eq_true
  rintro rfl
  exact nulFree (List.mem_of_mem_drop (List.mem_of_mem_take member))

/-- A character of a word. -/
theorem At.extend (here : At wordArray cur counter source wordSize)
    (left : wordArray.drop counter = c :: rest) (dark : isSpace c = false) :
    At wordArray (cur ++ [c]) (counter + 1) source (wordSize + 1) := by
  have char : wordArray[counter]? = some c := by
    rw [← Nat.add_zero counter, ← List.getElem?_drop, left]
    rfl
  have same : source + wordSize = counter := by
    rcases here with ⟨same, _⟩ | ⟨rfl, _, source⟩
    · exact same
    · rw [source, skipSpaces, left, List.takeWhile_cons_of_neg (by simp [dark])]
      rfl
  refine Or.inl ⟨by omega, ?_⟩
  rw [List.take_add_one, here.take, List.getElem?_drop, same, char]
  rfl

theorem closedWords_nil (dark : ∀ c ∈ cur, isSpace c = false) : closedWords (cur ++ []) = [] := by
  unfold closedWords
  rw [List.append_nil, List.splitOnP_eq_singleton dark]
  rfl

theorem closedWords_space (dark : ∀ c ∈ cur, isSpace c = false) (space : isSpace c = true) :
    closedWords (cur ++ c :: rest) =
      if cur ≠ [] then cur :: closedWords rest else closedWords rest := by
  unfold closedWords
  rw [List.splitOnP_append_cons_of_forall_mem dark c space,
    List.dropLast_cons_of_ne_nil (List.splitOnP_ne_nil _ _),
    List.filter_cons]
  simp only [decide_eq_true_eq]

/-- The loop counts the words with white space behind them. -/
theorem wcLoop_eq (nulFree : 0 ∉ wordArray) (fits : wordArray.length < 2 ^ 31) :
    ∀ (rest : List Byte) {cur : List Byte} {counter source wordSize : Nat} (wc : Wc),
      wordArray.drop counter = rest → counter + rest.length = wordArray.length →
      (∀ c ∈ cur, isSpace c = false) → At wordArray cur counter source wordSize →
      wcLoop wordArray rest counter source wordSize wc =
        (closedWords (cur ++ rest)).foldlM countWord wc := by
  intro rest
  induction rest with
  | nil =>
      intro cur counter source wordSize wc _ _ dark _
      rw [closedWords_nil dark]
      rfl
  | cons c rest ih =>
      intro cur counter source wordSize wc left total dark here
      have next : wordArray.drop (counter + 1) = rest := by
        rw [← List.drop_drop, left]
        rfl
      have char : c ≠ 0 := by
        rintro rfl
        apply nulFree
        apply List.mem_of_mem_drop (i := counter)
        rw [left]
        exact List.mem_cons_self
      rw [List.length_cons] at total
      have counted : ¬ 2 ^ 31 ≤ counter + 1 := by omega
      unfold wcLoop
      rw [if_neg char]
      cases space : isSpace c with
      | false =>
          have longer : cur ++ c :: rest = cur ++ [c] ++ rest := by simp
          rw [if_neg (by decide), if_neg counted, longer]
          apply ih wc next (by omega) _ (here.extend left space)
          intro d member
          cases List.mem_append.mp member with
          | inl old => exact dark d old
          | inr single => exact List.mem_singleton.mp single ▸ space
      | true =>
          rw [if_pos rfl, here.inputWord nulFree, closedWords_space dark space]
          have onward : ∀ wc,
              wcLoop wordArray rest (counter + 1) (skipSpaces wordArray (counter + 1)) 0 wc =
                (closedWords rest).foldlM countWord wc := by
            intro wc
            exact ih wc next (by omega) (fun c none => by cases none) (Or.inr ⟨rfl, rfl, rfl⟩)
          by_cases empty : cur = []
          · simp only [empty, ne_eq, not_true_eq_false, if_false, if_neg counted]
            exact onward wc
          · simp only [empty, ne_eq, not_false_eq_true, if_true, List.foldlM_cons]
            cases countWord wc cur with
            | error fault => rfl
            | ok wc' =>
                change (if 2 ^ 31 ≤ counter + 1 then _ else _) = _
                rw [if_neg counted]
                exact onward wc'

/-- The counter does not pass what an `int` holds. -/
theorem wcLoop_short : ∀ (rest : List Byte) {counter source wordSize : Nat} {wc wc' : Wc},
    0 ∉ rest → counter < 2 ^ 31 → wcLoop wordArray rest counter source wordSize wc = .ok wc' →
    counter + rest.length < 2 ^ 31 := by
  intro rest
  induction rest with
  | nil => exact fun _ below _ => below
  | cons c rest ih =>
      intro counter source wordSize wc wc' nulFree below run
      rw [List.mem_cons, not_or] at nulFree
      have onward : ∀ {source wordSize wc}, (if 2 ^ 31 ≤ counter + 1 then Except.error .undefined
          else wcLoop wordArray rest (counter + 1) source wordSize wc) = .ok wc' →
          counter + (c :: rest).length < 2 ^ 31 := by
        intro source wordSize wc run
        by_cases past : 2 ^ 31 ≤ counter + 1
        · rw [if_pos past] at run
          cases run
        · rw [if_neg past] at run
          have short := ih nulFree.2 (Nat.lt_of_not_le past) run
          rw [List.length_cons]
          omega
      unfold wcLoop at run
      rw [if_neg fun same => nulFree.1 same.symm] at run
      cases space : isSpace c with
      | false =>
          rw [space, if_neg (by decide)] at run
          exact onward run
      | true =>
          rw [space, if_pos rfl] at run
          by_cases word : inputWord wordArray source wordSize ≠ []
          · simp only [if_pos word] at run
            cases counted : countWord wc (inputWord wordArray source wordSize) with
            | error fault =>
                rw [counted] at run
                cases run
            | ok wc'' =>
                rw [counted] at run
                exact onward run
          · simp only [if_neg word] at run
            exact onward run

/-- The part of a text behind its last white space. -/
def lastWord (wordArray : List Byte) : List Byte := wordArray.rtakeWhile fun c => !isSpace c

theorem splitOnP_eq (wordArray : List Byte) :
    ∃ parts, wordArray.splitOnP isSpace = parts ++ [lastWord wordArray] := by
  have dark : ∀ c ∈ lastWord wordArray, isSpace c = false := by
    intro c member
    simpa using List.mem_rtakeWhile_imp member
  have whole : wordArray.rdropWhile (fun c => !isSpace c) ++ lastWord wordArray = wordArray :=
    List.rdropWhile_append_rtakeWhile
  by_cases none : wordArray.rdropWhile (fun c => !isSpace c) = []
  · rw [none, List.nil_append] at whole
    rw [whole] at dark ⊢
    exact ⟨[], List.splitOnP_eq_singleton dark⟩
  · have space := List.rdropWhile_last_not (fun c => !isSpace c) wordArray none
    generalize wordArray.rdropWhile (fun c => !isSpace c) = front at whole none space
    rw [Bool.not_eq_true, Bool.not_eq_false'] at space
    rw [← List.dropLast_append_getLast none, List.append_assoc, List.singleton_append] at whole
    refine ⟨front.dropLast.splitOnP isSpace, ?_⟩
    conv_lhs => rw [← whole]
    rw [List.splitOnP_append_cons _ _ space, List.splitOnP_eq_singleton dark]

theorem lastWord_eq_nil : lastWord wordArray = [] ↔
    wordArray = [] ∨ ∃ c, wordArray.getLast? = some c ∧ isSpace c = true := by
  unfold lastWord
  rw [List.rtakeWhile_eq_nil_iff]
  cases empty : wordArray.getLast? with
  | none =>
      have nil := List.getLast?_eq_none_iff.mp empty
      exact ⟨fun _ => Or.inl nil, fun _ some => absurd nil some⟩
  | some c =>
      have some : wordArray ≠ [] := by
        rintro rfl
        cases empty
      have last : wordArray.getLast some = c := by
        rw [List.getLast?_eq_some_getLast some] at empty
        exact Option.some.inj empty
      simp [some, last]

/-- The words are those with white space behind them, and one at the end of the text. -/
theorem words_eq (wordArray : List Byte) : words wordArray =
    closedWords wordArray ++ if lastWord wordArray ≠ [] then [lastWord wordArray] else [] := by
  obtain ⟨parts, split⟩ := splitOnP_eq wordArray
  unfold words closedWords
  rw [split, List.dropLast_concat, List.filter_append, List.filter_singleton]
  congr 1
  by_cases empty : lastWord wordArray = [] <;> simp [empty]

end Scan

/-- `wc_init` returns a table of the words of the text. -/
def CountsWords (wordArray : List Byte) : Prop :=
  ∃ wc, wcInit wordArray = .ok wc ∧ Counts wc (words wordArray)

theorem wcInit_eq {wordArray : List Byte} (nulFree : 0 ∉ wordArray)
    (few : (words wordArray).dedup.length < 2 ^ 29) (fits : wordArray.length < 2 ^ 31) :
    ∃ wc, wcInit wordArray = .ok wc ∧ Counts wc (closedWords wordArray) := by
  have part : (closedWords wordArray).dedup.length ≤ (words wordArray).dedup.length := by
    apply (List.subperm_of_subset (List.nodup_dedup _) _).length_le
    intro w member
    rw [List.mem_dedup] at member ⊢
    rw [words_eq]
    exact List.mem_append_left _ member
  obtain ⟨wc, keys, run, tallied⟩ :=
    tallied_new.foldlM (closedWords wordArray) (by rw [List.nil_append]; omega)
  have loop := wcLoop_eq nulFree fits wordArray ⟨hashTableNew, []⟩ (List.drop_zero ..)
    (Nat.zero_add _) (fun c none => by cases none) (Or.inl ⟨rfl, List.take_zero⟩)
  exact ⟨wc, loop.trans run, tallied.result⟩

theorem Counts.count_eq {wc : Wc} {ws ws' : List (List Byte)} (counts : Counts wc ws)
    (counts' : Counts wc ws') (w : List Byte) : ws.count w = ws'.count w := by
  have same := (counts.finds w).symm.trans (counts'.finds w)
  by_cases here : w ∈ ws <;> by_cases there : w ∈ ws'
  · rw [if_pos here, if_pos there] at same
    exact Option.some.inj same
  · rw [if_pos here, if_neg there] at same
    cases same
  · rw [if_neg here, if_pos there] at same
    cases same
  · rw [List.count_eq_zero_of_not_mem here, List.count_eq_zero_of_not_mem there]

/-- The words are counted exactly if the text is empty or ends with white space, and its places fit
into an `int`. -/
theorem word_count (wordArray : List Byte) (nulFree : 0 ∉ wordArray)
    (few : (words wordArray).dedup.length < 2 ^ 29) :
    CountsWords wordArray ↔ wordArray.length < 2 ^ 31 ∧
      (wordArray = [] ∨ ∃ c, wordArray.getLast? = some c ∧ isSpace c = true) := by
  rw [← lastWord_eq_nil]
  constructor
  · rintro ⟨wc, run, counts⟩
    have short := wcLoop_short wordArray nulFree (by decide) run
    rw [Nat.zero_add] at short
    obtain ⟨wc', run', counts'⟩ := wcInit_eq nulFree few short
    obtain rfl := Except.ok.inj (run'.symm.trans run)
    refine ⟨short, ?_⟩
    by_contra last
    have same := counts.count_eq counts' (lastWord wordArray)
    rw [words_eq, if_pos last, List.count_append, List.count_singleton_self] at same
    omega
  · rintro ⟨short, last⟩
    obtain ⟨wc, run, counts⟩ := wcInit_eq nulFree few short
    rw [CountsWords, words_eq, if_neg (not_not_intro last), List.append_nil]
    exact ⟨wc, run, counts⟩

/-- Three words, two of them the same, with white space behind each. -/
theorem word_count_three : words [97, 32, 98, 98, 10, 97, 32] = [[97], [98, 98], [97]] ∧
    CountsWords [97, 32, 98, 98, 10, 97, 32] := by
  have split : words [97, 32, 98, 98, 10, 97, 32] = [[97], [98, 98], [97]] := by
    unfold words
    simp [List.splitOnP_cons_eq_if_modifyHead, isSpace]
  refine ⟨split, (word_count [97, 32, 98, 98, 10, 97, 32] (by decide) ?_).mpr ?_⟩
  · rw [split]
    decide
  · exact ⟨by decide, Or.inr ⟨32, rfl, rfl⟩⟩

/-- One word at the end of the text. -/
theorem last_word_lost : ¬ CountsWords [97] := by
  rintro ⟨wc, run, counts⟩
  have split : words [97] = [[97]] := by
    unfold words
    simp [List.splitOnP_cons_eq_if_modifyHead, isSpace]
  have found := counts.finds [97]
  obtain rfl := Except.ok.inj run
  rw [split] at found
  cases found

end Ece344Lab.Warmup
