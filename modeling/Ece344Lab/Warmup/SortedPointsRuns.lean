import Mathlib.Data.Multiset.AddSub
import Ece344Lab.Warmup.SortedPointsFacts

set_option autoImplicit false

/- Any sequence of operations on a list of points. -/
namespace Ece344Lab.Warmup

open Linked Outcome

variable {α κ : Type} [LinearOrder α] [LinearOrder κ] (key : Point α → κ)

/-- What the list of points shows to a reader. -/
structure SortedPoints.Shows (s : SortedPoints α) (items : List (Point α)) : Prop where
  forward : Forward s.heap s.startLinker items
  backward : Backward s.heap s.endLinker items.reverse
  size : s.size = items.length
  sorted : items.Pairwise fun p q => rank key p ≤ rank key q

/-- What the operations return on a list of points, and what they leave. -/
structure SortedPoints.Serves (s : SortedPoints α) (items : List (Point α)) : Prop where
  add : ∀ x y, ∃ s' before behind, items = before ++ behind ∧ spAddPoint key s x y = .ok (1, s') ∧
    s'.Shows key (before ++ ⟨x, y⟩ :: behind)
  none : items = [] → spRemoveFirst s = .ok ⟨0, none, s⟩ ∧ spRemoveLast s = .ok ⟨0, none, s⟩
  first : ∀ (p : Point α) rest, items = p :: rest →
    ∃ s', spRemoveFirst s = .ok ⟨1, p, s'⟩ ∧ s'.Shows key rest
  last : ∀ (p : Point α) before, items = before ++ [p] →
    ∃ s', spRemoveLast s = .ok ⟨1, p, s'⟩ ∧ s'.Shows key before
  outside : ∀ index : Int, index < 0 ∨ (items.length : Int) ≤ index →
    spRemoveByIndex s index = .ok ⟨0, Option.none, s⟩
  index : ∀ before (p : Point α) behind, items = before ++ p :: behind →
    ∃ s', spRemoveByIndex s before.length = .ok ⟨1, p, s'⟩ ∧ s'.Shows key (before ++ behind)
  duplicates : ∃ s' rest, spDeleteDuplicates s = .ok ((items.length : Int) - rest.length, s') ∧
    s'.Shows key rest ∧ rest.Nodup ∧ ∀ p, p ∈ rest ↔ p ∈ items

variable {key}

theorem SortedPoints.Ok.shows {s : SortedPoints α} {cells : List (Nat × Point α)}
    (ok : s.Ok key cells) : s.Shows key (cells.map Prod.snd) where
  forward := ok.list.forward
  backward := ok.list.backward
  size := by rw [ok.size, List.length_map]
  sorted := ok.sorted

section Duplicates

variable {p : Point α} {items : List (Point α)}

omit [LinearOrder α] in
theorem mem_destutter' [DecidableEq α] (q : Point α) (items : List (Point α)) :
    ∀ p, q ∈ items.destutter' (· ≠ ·) p ↔ q ∈ p :: items := by
  induction items with
  | nil => exact fun p => Iff.rfl
  | cons r items ih =>
      intro p
      by_cases same : p = r
      · rw [List.destutter'_cons_neg _ (by simp [same]), ih, same]
        simp
      · rw [List.destutter'_cons_pos _ same, List.mem_cons, ih, List.mem_cons (l := r :: items)]

theorem rank_lt_of_le {p q : Point α} (below : rank key p ≤ rank key q) (other : p ≠ q) :
    rank key p < rank key q :=
  lt_of_le_of_ne below fun same => other (rank_injective key same)

/-- In a sorted list equal points are neighbours. -/
theorem destutter'_nodup (sorted : (p :: items).Pairwise fun p q => rank key p ≤ rank key q) :
    (items.destutter' (· ≠ ·) p).Nodup := by
  have ordered := sorted.sublist (List.destutter'_sublist items (· ≠ ·) p)
  have apart := List.isChain_destutter' (· ≠ ·) items p
  have strict : (items.destutter' (· ≠ ·) p).IsChain fun p q => rank key p < rank key q := by
    rw [List.isChain_iff_forall_rel_of_append_cons_cons]
    intro q r before behind shape
    have below := List.isChain_iff_forall_rel_of_append_cons_cons.mp ordered.isChain shape
    exact rank_lt_of_le below (List.isChain_iff_forall_rel_of_append_cons_cons.mp apart shape)
  have trans : IsTrans (Point α) fun p q => rank key p < rank key q := ⟨fun _ _ _ => lt_trans⟩
  exact strict.pairwise.imp fun less same => less.ne (congrArg (rank key) same)

end Duplicates

variable {s s' : SortedPoints α} {cells : List (Nat × Point α)}

theorem SortedPoints.Ok.deleteDuplicates (ok : s.Ok key cells) :
    ∃ s' rest, spDeleteDuplicates s = .ok ((cells.length : Int) - rest.length, s') ∧
      s'.Ok key rest ∧ (rest.map Prod.snd).Nodup ∧
      ∀ p, p ∈ rest.map Prod.snd ↔ p ∈ cells.map Prod.snd := by
  have size := ok.size
  unfold spDeleteDuplicates
  match cells with
  | [] =>
      refine ⟨s, [], if_pos ?_, ok, List.nodup_nil, fun p => Iff.rfl⟩
      rw [size]
      simp
  | [b] =>
      refine ⟨s, [b], ?_, ok, List.nodup_singleton _, fun p => Iff.rfl⟩
      rw [if_pos (by rw [size]; simp), Int.sub_self]
  | b :: c :: rest =>
      have start : s.startLinker = some b.1 := ok.list.start
      have here : s.heap b.1 = some ⟨b.2, first (c :: rest) none, none⟩ := ok.list.segment.1
      have enough : (c :: rest).length < s.size.toNat + 1 := by
        rw [size, Int.toNat_natCast]
        exact Nat.lt_succ_of_lt (Nat.lt_succ_self _)
      have several : ¬ s.size ≤ 1 := by
        rw [size, List.length_cons, List.length_cons]
        omega
      obtain ⟨s', left, run, done, values⟩ := deleteLoop_eq (c :: rest) s [] b _ 0 ok enough
      rw [if_neg several, start, deref_some here, ok_bind]
      refine ⟨s', left, run.trans ?_, done, ?_, ?_⟩
      · congr 2
        simp
      · rw [values]
        exact destutter'_nodup ok.sorted
      · intro p
        rw [values]
        exact mem_destutter' p _ b.2

theorem SortedPoints.Ok.serves (ok : s.Ok key cells) : s.Serves key (cells.map Prod.snd) where
  add x y := by
    obtain ⟨s', xs, ys, split, run, done⟩ := ok.add x y
    refine ⟨s', xs.map Prod.snd, ys.map Prod.snd, by rw [split, List.map_append], run, ?_⟩
    have shown := done.shows
    rw [List.map_append] at shown
    exact shown
  none empty := by
    have nil : cells = [] := List.map_eq_nil_iff.mp empty
    rw [nil] at ok
    exact ok.removeNone
  first p rest shape := by
    obtain ⟨c, cells', rfl, rfl, rfl⟩ := List.map_eq_cons_iff.mp shape
    obtain ⟨s', run, done⟩ := ok.removeFirst
    exact ⟨s', run, done.shows⟩
  last p before shape := by
    obtain ⟨xs, ys, rfl, rfl, single⟩ := List.map_eq_append_iff.mp shape
    obtain ⟨c, rfl, rfl⟩ := List.map_eq_singleton_iff.mp single
    obtain ⟨s', run, done⟩ := ok.removeLast
    exact ⟨s', run, done.shows⟩
  outside index far := by
    apply ok.removeOutside
    rw [List.length_map] at far
    exact far
  index before p behind shape := by
    obtain ⟨xs, ys, rfl, rfl, tail⟩ := List.map_eq_append_iff.mp shape
    obtain ⟨c, ys, rfl, rfl, rfl⟩ := List.map_eq_cons_iff.mp tail
    obtain ⟨s', run, done⟩ := ok.removeByIndex
    have shown := done.shows
    rw [List.map_append] at shown
    rw [List.length_map]
    exact ⟨s', run, shown⟩
  duplicates := by
    obtain ⟨s', rest, run, done, distinct, same⟩ := ok.deleteDuplicates
    refine ⟨s', rest.map Prod.snd, ?_, done.shows, distinct, same⟩
    rw [List.length_map, List.length_map]
    exact run

variable (key)

/-- The states of the program with the points that have been added and not yet removed. -/
inductive Run : SortedPoints α → Multiset (Point α) → Prop
  | init : Run spInit 0
  | add {s s' m x y ret} (before : Run s m) (run : spAddPoint key s x y = .ok (ret, s')) :
      Run s' (⟨x, y⟩ ::ₘ m)
  | removeFirst {s m r} (before : Run s m) (run : spRemoveFirst s = .ok r) :
      Run r.sp (m - (r.stored.toList : Multiset (Point α)))
  | removeLast {s m r} (before : Run s m) (run : spRemoveLast s = .ok r) :
      Run r.sp (m - (r.stored.toList : Multiset (Point α)))
  | removeByIndex {s m r} {index : Int} (before : Run s m)
      (run : spRemoveByIndex s index = .ok r) :
      Run r.sp (m - (r.stored.toList : Multiset (Point α)))
  | deleteDuplicates {s s' m n} (before : Run s m) (run : spDeleteDuplicates s = .ok (n, s')) :
      Run s' m.dedup

variable {key}

/-- What a removal takes from the multiset. -/
theorem sub_stored (before behind : List (Point α)) (p : Point α) :
    ((before ++ p :: behind : List (Point α)) : Multiset (Point α)) -
      ((some p).toList : Multiset (Point α)) = (before ++ behind : List (Point α)) := by
  have moved : ((before ++ p :: behind : List (Point α)) : Multiset (Point α)) =
      p ::ₘ ((before ++ behind : List (Point α)) : Multiset (Point α)) :=
    Multiset.coe_eq_coe.mpr List.perm_middle
  rw [moved]
  simp

theorem SortedPoints.Ok.rest {r : RemoveResult α}
    (removed : (r.stored = none ∧ r.sp = s) ∨
      ∃ xs c ys, cells = xs ++ c :: ys ∧ r.stored = some c.2 ∧ r.sp.Ok key (xs ++ ys))
    (ok : s.Ok key cells) :
    ∃ cells', r.sp.Ok key cells' ∧
      ((cells'.map Prod.snd : List (Point α)) : Multiset (Point α)) =
        ((cells.map Prod.snd : List (Point α)) : Multiset (Point α)) -
          (r.stored.toList : Multiset (Point α)) := by
  cases removed with
  | inl kept =>
      refine ⟨cells, kept.2 ▸ ok, ?_⟩
      rw [kept.1]
      simp
  | inr taken =>
      obtain ⟨xs, c, ys, rfl, stored, done⟩ := taken
      refine ⟨xs ++ ys, done, ?_⟩
      rw [stored, List.map_append, List.map_append, List.map_cons, sub_stored]

/-- In every run the linkers hold the points added and not yet removed. -/
theorem Run.ok {m : Multiset (Point α)} (run : Run key s m) :
    ∃ cells, s.Ok key cells ∧
      ((cells.map Prod.snd : List (Point α)) : Multiset (Point α)) = m := by
  induction run with
  | init =>
      refine ⟨[], ⟨⟨trivial, List.nodup_nil, rfl, rfl⟩, rfl, ?_, List.Pairwise.nil⟩, rfl⟩
      intro a member
      cases member
  | @add s s' m x y ret before run ih =>
      obtain ⟨cells, ok, rfl⟩ := ih
      obtain ⟨s'', xs, ys, rfl, run', done⟩ := ok.add x y
      rw [run] at run'
      obtain ⟨rfl, rfl⟩ := Prod.mk.inj (Except.ok.inj run')
      refine ⟨_, done, ?_⟩
      rw [List.map_append, List.map_append, List.map_cons]
      exact Multiset.coe_eq_coe.mpr List.perm_middle
  | @removeFirst s m r before run ih =>
      obtain ⟨cells, ok, rfl⟩ := ih
      apply ok.rest
      cases cells with
      | nil =>
          rw [ok.removeNone.1] at run
          rw [← Except.ok.inj run]
          exact Or.inl ⟨rfl, rfl⟩
      | cons c rest =>
          obtain ⟨s', run', done⟩ := ok.removeFirst
          rw [run'] at run
          rw [← Except.ok.inj run]
          exact Or.inr ⟨[], c, rest, rfl, rfl, done⟩
  | @removeLast s m r before run ih =>
      obtain ⟨cells, ok, rfl⟩ := ih
      apply ok.rest
      cases cells using List.reverseRecOn with
      | nil =>
          rw [ok.removeNone.2] at run
          rw [← Except.ok.inj run]
          exact Or.inl ⟨rfl, rfl⟩
      | append_singleton xs c =>
          obtain ⟨s', run', done⟩ := ok.removeLast
          rw [run'] at run
          rw [← Except.ok.inj run]
          exact Or.inr ⟨xs, c, [], rfl, rfl, by rw [List.append_nil]; exact done⟩
  | @removeByIndex s m r index before run ih =>
      obtain ⟨cells, ok, rfl⟩ := ih
      apply ok.rest
      by_cases outside : index < 0 ∨ (cells.length : Int) ≤ index
      · rw [ok.removeOutside outside] at run
        rw [← Except.ok.inj run]
        exact Or.inl ⟨rfl, rfl⟩
      · obtain ⟨i, rfl⟩ : ∃ i : Nat, index = i := ⟨index.toNat, by omega⟩
        have inside : i < cells.length := by omega
        obtain ⟨xs, c, ys, rfl, rfl⟩ : ∃ xs c ys, cells = xs ++ c :: ys ∧ xs.length = i :=
          ⟨cells.take i, cells[i], cells.drop (i + 1), by simp, by simp; omega⟩
        obtain ⟨s', run', done⟩ := ok.removeByIndex
        rw [run'] at run
        rw [← Except.ok.inj run]
        exact Or.inr ⟨xs, c, ys, rfl, rfl, done⟩
  | @deleteDuplicates s s' m n before run ih =>
      obtain ⟨cells, ok, rfl⟩ := ih
      obtain ⟨s'', rest, run', done, distinct, same⟩ := ok.deleteDuplicates
      rw [run] at run'
      obtain ⟨rfl, rfl⟩ := Prod.mk.inj (Except.ok.inj run')
      refine ⟨rest, done, ?_⟩
      apply (Multiset.Nodup.ext (Multiset.coe_nodup.mpr distinct) (Multiset.nodup_dedup _)).mpr
      intro p
      rw [Multiset.mem_coe, Multiset.mem_dedup, Multiset.mem_coe]
      exact same p

/-- After any operations the list is sorted and linked both ways, holds the points added and not yet
removed, and serves the next operation. -/
theorem sorted_points_run {m : Multiset (Point α)} (run : Run key s m) :
    ∃ items : List (Point α), s.Shows key items ∧ (items : Multiset (Point α)) = m ∧
      s.Serves key items := by
  obtain ⟨cells, ok, same⟩ := run.ok
  exact ⟨cells.map Prod.snd, ok.shows, same, ok.serves⟩

/-- The square of the distance from the origin. -/
def distance (p : Point Int) : Int := p.x * p.x + p.y * p.y

/-- Three points are added, one of them twice. The second copy is deleted and the first point
removed. -/
theorem sorted_points_run_three : ∃ s : SortedPoints Int, Run distance s {⟨3, 4⟩} ∧
    ∃ items : List (Point Int), s.Shows distance items ∧
      (items : Multiset (Point Int)) = {⟨3, 4⟩} ∧ s.Serves distance items := by
  have ends : Returns (spAddPoint distance spInit 3 4) fun r =>
      Returns (spAddPoint distance r.2 0 1) fun r => Returns (spAddPoint distance r.2 3 4) fun r =>
      Returns (spDeleteDuplicates r.2) fun r =>
      Returns (spRemoveFirst r.2) fun r => r.stored = some ⟨0, 1⟩ := by
    decide +kernel
  obtain ⟨_, ran₁, _, ran₂, _, ran₃, _, ran₄, r, ran₅, stored⟩ := ends
  have run := (((Run.init.add ran₁).add ran₂).add ran₃).deleteDuplicates ran₄ |>.removeFirst ran₅
  have left : (⟨3, 4⟩ ::ₘ ⟨0, 1⟩ ::ₘ ⟨3, 4⟩ ::ₘ (0 : Multiset (Point Int))).dedup -
      ((some ⟨0, 1⟩ : Option (Point Int)).toList : Multiset (Point Int)) = {⟨3, 4⟩} := by
    decide
  rw [stored, left] at run
  exact ⟨r.sp, run, sorted_points_run run⟩

end Ece344Lab.Warmup
