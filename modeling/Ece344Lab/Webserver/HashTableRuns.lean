import Ece344Lab.Webserver.HashTableFacts

set_option autoImplicit false

/- The hash table as a finite map, over any sequence of insertions, searches and deletions. -/
namespace Ece344Lab.Webserver

variable {β : Type}

/-- The tables that insertions from tables satisfying `allowed` and deletions lead to, with the last
bucket inserted for each key and not deleted. -/
inductive HashTable.Run (allowed : HashTable β → Prop) :
    HashTable β → (List Byte → Option β) → Prop
  | new : Run allowed hashTableNew fun _ => none
  | insert {t t' m k b ret} (before : Run allowed t m) (absent : m k = none) (held : allowed t)
      (run : hashTableInsert t k b = .ok (ret, t')) :
      Run allowed t' (Function.update m k (some b))
  | delete {t m k} (before : Run allowed t m) :
      Run allowed (hashTableDelete t k).2 (Function.update m k none)

theorem HashTable.Run.ok {t : HashTable β} {m : List Byte → Option β}
    (run : HashTable.Run HashTable.Steady t m) : t.Ok m := by
  induction run with
  | new => exact hashTableNew_ok
  | insert before absent held run ih =>
      obtain ⟨t', run', done⟩ := ih.insert absent held _
      rw [run] at run'
      obtain ⟨rfl, rfl⟩ := Prod.mk.inj (Except.ok.inj run')
      exact done
  | delete before ih =>
      obtain ⟨t', run, done, _⟩ := ih.delete _
      rw [run]
      exact done

theorem hashTableInsert_alone (main : BucketBuffer β) {k : List Byte} (b : β)
    (few : 2 * (main.bucketNumber + 1) < main.size) :
    hashTableInsert ⟨main, none⟩ k b = .ok (1, ⟨main.push k b, none⟩) :=
  if_neg (Nat.not_le.mpr few)

/-- While no insertion moves a chain whose keys belong apart, the table is the finite map. -/
theorem hash_table_run {t : HashTable β} {m : List Byte → Option β}
    (run : HashTable.Run HashTable.Steady t m) :
    (∀ k, hashTableFind t k = m k) ∧
      (∀ k, (hashTableDelete t k).1 = if (m k).isSome then 1 else 0) ∧
      ∀ k b, m k = none → t.Steady → ∃ t', hashTableInsert t k b = .ok (1, t') := by
  have ok := run.ok
  refine ⟨ok.find, ?_, ?_⟩
  · intro k
    obtain ⟨t', run, _⟩ := ok.delete k
    rw [run]
  · intro k b absent steady
    obtain ⟨t', run, _⟩ := ok.insert absent steady b
    exact ⟨t', run⟩

theorem HashTable.steady_alone {main : BucketBuffer β} (small : main.size < 2 ^ 30) :
    (⟨main, none⟩ : HashTable β).Steady :=
  ⟨fun _ member => absurd member List.not_mem_nil, Or.inl small⟩

theorem hashTableDelete_alone (main : BucketBuffer β) (k : List Byte) :
    (hashTableDelete ⟨main, none⟩ k).2 = ⟨(bucketBufferDelete main k).2, none⟩ := by
  unfold hashTableDelete bucketBufferDelete
  dsimp only
  cases Keyed.lookup Pair.first (main.list (strHash k main.size)) k with
  | none => rfl
  | some p => rfl

/-- The keys a, b and c are inserted, and b is deleted. -/
theorem hash_table_run_three : ∃ (t : HashTable Nat) (m : List Byte → Option Nat),
    HashTable.Run HashTable.Steady t m ∧ m [97#8] = some 1 ∧ m [98#8] = none ∧
      hashTableFind t [97#8] = some 1 ∧ hashTableFind t [98#8] = none ∧
      (hashTableDelete t [99#8]).1 = 1 ∧ (hashTableDelete t [98#8]).1 = 0 ∧
      ∃ t', hashTableInsert t [98#8] 4 = .ok (1, t') := by
  let one := BucketBuffer.push (⟨fun _ => [], 4096, 0, 0⟩ : BucketBuffer Nat) [97#8] 1
  let two := one.push [98#8] 2
  have first := HashTable.Run.insert .new rfl (HashTable.steady_alone (by decide))
    (hashTableInsert_alone ⟨fun _ => [], 4096, 0, 0⟩ (k := [97#8]) 1 (by decide))
  have second :=
    first.insert (by decide) (HashTable.steady_alone (show one.size < 2 ^ 30 by decide))
    (hashTableInsert_alone one (k := [98#8]) 2 (by decide))
  have third :=
    second.insert (by decide) (HashTable.steady_alone (show two.size < 2 ^ 30 by decide))
    (hashTableInsert_alone two (k := [99#8]) 3 (by decide))
  have run := third.delete (k := [98#8])
  rw [hashTableDelete_alone] at run
  obtain ⟨finds, deletes, inserts⟩ := hash_table_run run
  refine ⟨_, _, run, by decide, by decide, (finds _).trans (by decide), (finds _).trans (by decide),
    (deletes _).trans (by decide), (deletes _).trans (by decide), ?_⟩
  exact inserts _ 4 (by decide) (HashTable.steady_alone (by decide))

section Lost

/-- A table of 4096 buckets in which `n` pairs have been pushed and the keys 1 1 and 125 5, which
share a bucket, are left. -/
def crowded (n : Nat) : HashTable Nat where
  mainBuffer :=
    ⟨Function.update (fun _ => []) 2679 [⟨[1#8, 1#8], 0⟩, ⟨[125#8, 5#8], 0⟩], 4096, n, 0⟩
  subBuffer := none

def crowdedMap : List Byte → Option Nat :=
  Function.update (Function.update (fun _ => none) [1#8, 1#8] (some 0)) [125#8, 5#8] (some 0)

theorem hashTableInsert_switch (main : BucketBuffer β) {k : List Byte} (b : β)
    (full : main.size ≤ 2 * (main.bucketNumber + 1)) (small : main.size < 2 ^ 30) :
    hashTableInsert ⟨main, none⟩ k b =
      .ok (1, ⟨⟨fun _ => [], 2 * main.size, 0, 0⟩, some (main.push k b)⟩) := by
  have fits : 2 * main.size < 2 ^ 31 := by omega
  refine (if_pos full).trans ?_
  change (bucketBufferNew (2 * main.size) >>= fun _ => _) = _
  rw [bucketBufferNew, if_pos fits]
  rfl

/-- A pair that was just pushed is deleted. -/
theorem bucketBufferDelete_push {main : BucketBuffer β} {k : List Byte} (b : β)
    (absent : main.pair k = none) :
    bucketBufferDelete (main.push k b) k =
      (1, { main with bucketNumber := main.bucketNumber + 1 }) := by
  have chain : (main.push k b).list (strHash k main.size) =
      main.list (strHash k main.size) ++ [⟨k, b⟩] := Function.update_self _ _ _
  have before : ∀ a ∈ main.list (strHash k main.size), ¬ decide (a.first = k) = true :=
    List.find?_eq_none.mp absent
  have found : Keyed.lookup Pair.first (main.list (strHash k main.size) ++ [⟨k, b⟩]) k =
      some ⟨k, b⟩ := by
    unfold Keyed.lookup
    rw [List.find?_append, List.find?_eq_none.mpr before]
    simp
  have rest : Keyed.remove Pair.first (main.list (strHash k main.size) ++ [⟨k, b⟩]) k =
      main.list (strHash k main.size) := by
    unfold Keyed.remove
    rw [List.eraseP_append_right _ before]
    simp
  have list : Function.update (main.push k b).list (strHash k main.size)
      (Keyed.remove Pair.first ((main.push k b).list (strHash k main.size)) k) = main.list := by
    rw [chain, rest]
    exact (Function.update_idem _ _ _).trans (Function.update_eq_self _ _)
  simp only [bucketBufferDelete, show (main.push k b).size = main.size from rfl, chain, found]
  rw [← chain, list]
  rfl

theorem crowded_empty (n : Nat) {i : Nat} (other : i ≠ 2679) :
    (crowded n).mainBuffer.list i = [] :=
  (Function.update_of_ne other _ fun _ => []).trans rfl

theorem crowded_absent (n : Nat) : (crowded n).mainBuffer.pair [2#8] = none := by
  have bucket : strHash [2#8] 4096 = 951 := by decide
  have empty := crowded_empty n (show 951 ≠ 2679 by decide)
  change Keyed.lookup Pair.first ((crowded n).mainBuffer.list (strHash [2#8] 4096)) [2#8] = none
  rw [bucket, empty]
  rfl

/-- Inserting and deleting another key makes the table count one more pair. -/
theorem crowded_again {n : Nat} (few : n + 1 < 2048)
    (run : HashTable.Run (fun _ => True) (crowded n) crowdedMap) :
    HashTable.Run (fun _ => True) (crowded (n + 1)) crowdedMap := by
  have inserted := hashTableInsert_alone (crowded n).mainBuffer (k := [2#8]) 0
    (show 2 * (n + 1) < 4096 by omega)
  have deleted := bucketBufferDelete_push (b := 0) (crowded_absent n)
  have whole := (run.insert (by decide) trivial inserted).delete (k := [2#8])
  simp only [hashTableDelete, deleted] at whole
  rw [Function.update_idem, Function.update_eq_self_iff.mpr (by decide)] at whole
  exact whole

theorem crowded_run : HashTable.Run (fun _ => True) (crowded 2) crowdedMap := by
  have bucket : strHash [1#8, 1#8] 4096 = 2679 := by decide
  have bucket' : strHash [125#8, 5#8] 4096 = 2679 := by decide
  have first := hashTableInsert_alone ⟨fun _ => [], 4096, 0, 0⟩ (k := [1#8, 1#8]) 0
    (by decide)
  have second := hashTableInsert_alone
    (BucketBuffer.push ⟨fun _ => [], 4096, 0, 0⟩ [1#8, 1#8] 0) (k := [125#8, 5#8]) 0 (by decide)
  have start : HashTable.Run (fun _ => True) (hashTableNew : HashTable Nat) fun _ => none := .new
  have whole := (start.insert rfl trivial first).insert (by decide) trivial second
  have pushed : BucketBuffer.push (BucketBuffer.push ⟨fun _ => [], 4096, 0, 0⟩ [1#8, 1#8] 0)
      [125#8, 5#8] 0 = (crowded 2).mainBuffer := by
    unfold BucketBuffer.push crowded
    dsimp only
    rw [bucket, bucket', Function.update_self, Function.update_idem]
    rfl
  rw [pushed] at whole
  exact whole

theorem crowded_runs (n : Nat) (few : n + 2 < 2048) :
    HashTable.Run (fun _ => True) (crowded (n + 2)) crowdedMap := by
  induction n with
  | zero => exact crowded_run
  | succ n ih => exact crowded_again (by omega) (ih (by omega))

theorem reallocateLoop_skip (main sub : BucketBuffer β) (n k : Nat) : ∀ (i count : Nat),
    (∀ j, i ≤ j → j < i + k → sub.list j = []) →
    reallocateLoop (k + n) i count main sub = reallocateLoop n (i + k) count main sub := by
  induction k with
  | zero =>
      intro i count _
      rw [Nat.zero_add, Nat.add_zero]
  | succ k ih =>
      intro i count empty
      rw [Nat.add_right_comm, reallocateLoop, if_pos (empty i (Nat.le_refl _) (by omega)),
        ih (i + 1) count fun j low high => empty j (by omega) (by omega), Nat.add_right_comm,
        Nat.add_assoc]

theorem reallocateLoop_only {main sub : BucketBuffer β} {i n : Nat} (inside : i < n)
    (used : sub.list i ≠ []) (only : ∀ j, j ≠ i → sub.list j = []) :
    reallocateLoop n 0 0 main sub = moveList main sub i := by
  obtain ⟨k, rfl⟩ : ∃ k, n = i + (k + 1) := ⟨n - i - 1, by omega⟩
  obtain ⟨key, _, moved⟩ := moveList_of_ne main sub used
  have behind : ∀ j, i + 1 ≤ j → j < i + 1 + k → (moveList main sub i).2.list j = [] := by
    intro j low _
    rw [moved]
    exact (Function.update_of_ne (by omega) _ _).trans (only j (by omega))
  have rest := reallocateLoop_skip (moveList main sub i).1 _ 0 k (i + 1) 1 behind
  rw [reallocateLoop_skip _ _ (k + 1) i 0 0 fun j _ before => only j (by omega), Nat.zero_add,
    reallocateLoop, if_neg used]
  exact rest

theorem hashTableReallocate_only (main sub : BucketBuffer β) {i : Nat} (inside : i < sub.size)
    (cursor : sub.reallocateCursor = 0) (used : sub.list i ≠ [])
    (only : ∀ j, j ≠ i → sub.list j = []) :
    hashTableReallocate ⟨main, some sub⟩ =
      (1, ⟨(moveList main sub i).1, some (moveList main sub i).2⟩) := by
  obtain ⟨key, _, moved⟩ := moveList_of_ne main sub used
  have kept : (moveList main sub i).2.size ≠ 0 := by
    rw [moved]
    exact Nat.ne_of_gt (Nat.zero_lt_of_lt inside)
  unfold hashTableReallocate
  dsimp only
  rw [cursor, Nat.sub_zero, reallocateLoop_only inside used only, if_neg kept]

/-- The tables before and after the insertion that moves the two keys. -/
def crowdedSub : HashTable Nat :=
  ⟨⟨fun _ => [], 8192, 0, 0⟩, some (crowded 2048).mainBuffer⟩

def misplaced : HashTable Nat :=
  ⟨⟨Function.update (Function.update (fun _ => []) 5047 [⟨[2#8], 0⟩]) 2679
      [⟨[1#8, 1#8], 0⟩, ⟨[125#8, 5#8], 0⟩], 8192, 3, 0⟩, some ⟨fun _ => [], 4096, 2046, 0⟩⟩

theorem crowdedSub_run : HashTable.Run (fun _ => True) crowdedSub crowdedMap := by
  have switched := hashTableInsert_switch (crowded 2047).mainBuffer (k := [2#8]) 0
    (by decide) (by decide)
  have deleted := bucketBufferDelete_push (b := 0) (crowded_absent 2047)
  have run := ((crowded_runs 2045 (by decide)).insert (by decide) trivial switched).delete
    (k := [2#8])
  have same : Function.update crowdedMap [2#8] none = crowdedMap :=
    Function.update_eq_self_iff.mpr (by decide)
  rw [Function.update_idem, same] at run
  simp only [hashTableDelete, deleted] at run
  exact run

theorem crowdedSub_insert : hashTableInsert crowdedSub [2#8] 0 = .ok (1, misplaced) := by
  have bucket : strHash [2#8] 8192 = 5047 := by decide
  have bucket' : strHash [1#8, 1#8] 8192 = 2679 := by decide
  have cleared : Function.update (crowded 2048).mainBuffer.list 2679 [] = fun _ => [] :=
    (Function.update_idem _ _ _).trans (Function.update_eq_self 2679 fun _ => [])
  have used : (crowded 2048).mainBuffer.list 2679 = [⟨[1#8, 1#8], 0⟩, ⟨[125#8, 5#8], 0⟩] := rfl
  have pushed : BucketBuffer.push ⟨fun _ => [], 8192, 0, 0⟩ [2#8] 0 =
      ⟨Function.update (fun _ => []) 5047 [⟨[2#8], 0⟩], 8192, 1, 0⟩ := by
    unfold BucketBuffer.push
    dsimp only
    rw [bucket]
    rfl
  have moved : moveList ⟨Function.update (fun _ => []) 5047 [⟨[2#8], 0⟩], 8192, 1, 0⟩
      (crowded 2048).mainBuffer 2679 = (misplaced.mainBuffer, ⟨fun _ => [], 4096, 2046, 0⟩) := by
    unfold moveList
    simp only [used, bucket', cleared]
    rfl
  have reallocated := hashTableReallocate_only
    ⟨Function.update (fun _ => []) 5047 [⟨[2#8], 0⟩], 8192, 1, 0⟩ (crowded 2048).mainBuffer
    (i := 2679) (by decide) rfl
    (by rw [used]; simp) fun j other => crowded_empty 2048 other
  rw [moved] at reallocated
  rw [hashTableInsert_eq]
  unfold crowdedSub
  dsimp only
  rw [pushed, reallocated]
  exact if_neg (by decide)

/-- The key 125 5 is moved along with the key 1 1 to a bucket where it is not looked for. -/
theorem hash_table_loses : ∃ (t : HashTable Nat) (m : List Byte → Option Nat),
    HashTable.Run (fun _ => True) t m ∧ m [125#8, 5#8] = some 0 ∧
      hashTableFind t [125#8, 5#8] = none := by
  have run := crowdedSub_run.insert (k := [2#8]) (by decide) trivial crowdedSub_insert
  have bucket : strHash [125#8, 5#8] 8192 = 6775 := by decide
  refine ⟨_, _, run, by decide, ?_⟩
  have missing : misplaced.mainBuffer.list 6775 = [] := rfl
  have found : bucketBufferFind misplaced.mainBuffer [125#8, 5#8] = none := by
    unfold bucketBufferFind
    dsimp only
    rw [show misplaced.mainBuffer.size = 8192 from rfl, bucket, missing]
    rfl
  unfold hashTableFind
  rw [found]
  rfl

end Lost

end Ece344Lab.Webserver
