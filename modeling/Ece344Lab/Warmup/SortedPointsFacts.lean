import Mathlib.Data.List.Destutter
import Mathlib.Data.List.Induction
import Mathlib.Data.List.Sort
import Mathlib.Data.Prod.Lex
import Mathlib.Data.Multiset.Dedup
import Ece344Lab.Lib.Outcome
import Ece344Lab.Lib.Splice
import Ece344Lab.Warmup.SortedPoints

set_option autoImplicit false

/- The list of points is sorted and linked both ways, whatever is added and removed. -/
namespace Ece344Lab.Warmup

open Linked Outcome

variable {α κ : Type} [LinearOrder α] [LinearOrder κ] (key : Point α → κ)

/-- Points are ordered by key, then by the first coordinate, then by the second. -/
def rank (p : Point α) : κ ×ₗ α ×ₗ α := toLex (key p, toLex (p.x, p.y))

omit [LinearOrder α] [LinearOrder κ] in
theorem rank_injective {p q : Point α} (same : rank key p = rank key q) : p = q := by
  have outer := congrArg ofLex same
  have inner := congrArg ofLex (congrArg Prod.snd outer)
  exact Point.ext (congrArg Prod.fst inner) (congrArg Prod.snd inner)

theorem rank_lt_iff (p q : Point α) : rank key p < rank key q ↔
    key p < key q ∨ key p = key q ∧ (p.x < q.x ∨ p.x = q.x ∧ p.y < q.y) := by
  unfold rank
  rw [Prod.Lex.toLex_lt_toLex, Prod.Lex.toLex_lt_toLex]

/-- The comparison of the source says that `p1` is not below `p2`. -/
theorem detailPointCompare_iff (p1 p2 : Point α) :
    (detailPointCompare key p1 p2 = 1 ∨ detailPointCompare key p1 p2 = 0) ↔
      rank key p2 ≤ rank key p1 := by
  rw [← not_lt, rank_lt_iff]
  unfold detailPointCompare pointCompare
  rcases lt_trichotomy (key p1) (key p2) with below | same | above
  · simp [below, below.ne]
  · rcases lt_trichotomy p1.x p2.x with left | middle | right
    · simp [same, left]
    · rcases lt_trichotomy p1.y p2.y with down | level | up
      · simp [same, middle, down]
      · simp [same, middle, level]
      · simp [same, middle, up, up.not_gt]
    · simp [same, right, right.not_gt, right.ne']
  · simp [above.ne', above.not_gt]

/-- The linkers of a list of points, in order. -/
structure SortedPoints.Ok (s : SortedPoints α) (cells : List (Nat × Point α)) : Prop where
  list : IsList s.heap s.startLinker s.endLinker cells
  size : s.size = cells.length
  below : ∀ a ∈ cells.map Prod.fst, a < s.brk
  sorted : (cells.map Prod.snd).Pairwise fun p q => rank key p ≤ rank key q

/-- Where the loop of `sp_add_point` stops. -/
theorem findPlace_eq (h : Heap (Point α)) (np : Point α) (cells : List (Nat × Point α)) :
    ∀ (fuel : Nat) (before : Option Nat), cells.length < fuel + 1 → Segment h before cells none →
      ∃ xs ys, cells = xs ++ ys ∧ (∀ p ∈ xs.map Prod.snd, rank key p < rank key np) ∧
        (∀ c, ys.head? = some c → rank key np ≤ rank key c.2) ∧
        findPlace key h np fuel (first cells none) before =
        .ok (first ys none, last before xs) := by
  induction cells with
  | nil =>
      intro fuel before _ _
      refine ⟨[], [], rfl, ?_, ?_, ?_⟩
      · intro p member
        cases member
      · intro c none
        cases none
      · cases fuel <;> rfl
  | cons c rest ih =>
      intro fuel before enough segment
      rw [List.length_cons] at enough
      obtain ⟨here, behind⟩ := segment
      cases fuel with
      | zero => omega
      | succ fuel =>
          unfold findPlace
          rw [first_cons]
          dsimp only
          rw [deref_some here]
          by_cases stop : rank key np ≤ rank key c.2
          · refine ⟨[], c :: rest, rfl, ?_, ?_, ?_⟩
            · intro p member
              cases member
            · intro d same
              rw [← Option.some.inj same]
              exact stop
            · exact if_pos ((detailPointCompare_iff key c.2 np).mpr stop)
          · obtain ⟨xs, ys, split, smaller, larger, found⟩ := ih fuel (some c.1) (by omega) behind
            refine ⟨c :: xs, ys, by rw [split, List.cons_append], ?_, larger, ?_⟩
            · intro p member
              cases List.mem_cons.mp member with
              | inl same =>
                  rw [same]
                  exact not_le.mp stop
              | inr later => exact smaller p later
            · have passes := mt (detailPointCompare_iff key c.2 np).mp stop
              exact (if_neg passes).trans found

variable {key}

theorem sorted_insert {np : Point α} {xs ys : List (Nat × Point α)} {a : Nat}
    (sorted : ((xs ++ ys).map Prod.snd).Pairwise fun p q => rank key p ≤ rank key q)
    (smaller : ∀ p ∈ xs.map Prod.snd, rank key p < rank key np)
    (larger : ∀ c, ys.head? = some c → rank key np ≤ rank key c.2) :
    ((xs ++ (a, np) :: ys).map Prod.snd).Pairwise fun p q => rank key p ≤ rank key q := by
  rw [List.map_append, List.pairwise_append] at sorted
  obtain ⟨left, right, between⟩ := sorted
  have above : ∀ q ∈ ys.map Prod.snd, rank key np ≤ rank key q := by
    intro q member
    cases ys with
    | nil => cases member
    | cons d rest =>
        have first := larger d rfl
        cases List.mem_cons.mp member with
        | inl same =>
            rw [same]
            exact first
        | inr later => exact first.trans ((List.pairwise_cons.mp right).1 q later)
  rw [List.map_append, List.map_cons, List.pairwise_append]
  refine ⟨left, List.pairwise_cons.mpr ⟨above, right⟩, ?_⟩
  intro p here q there
  cases List.mem_cons.mp there with
  | inl same =>
      rw [same]
      exact (smaller p here).le
  | inr later => exact between p here q later

section Operations

variable {s : SortedPoints α} {cells : List (Nat × Point α)}

theorem SortedPoints.Ok.fresh (ok : s.Ok key cells) : s.brk ∉ cells.map Prod.fst :=
  fun member => Nat.lt_irrefl _ (ok.below _ member)

/-- The list after a new linker has come in at some place. -/
theorem SortedPoints.Ok.added (ok : s.Ok key cells) {xs ys : List (Nat × Point α)} {np : Point α}
    (split : cells = xs ++ ys) {heap : Heap (Point α)} {start finish : Option Nat}
    (smaller : ∀ p ∈ xs.map Prod.snd, rank key p < rank key np)
    (larger : ∀ c, ys.head? = some c → rank key np ≤ rank key c.2)
    (list : IsList heap start finish (xs ++ (s.brk, np) :: ys)) :
    SortedPoints.Ok key ⟨start, finish, s.size + 1, heap, s.brk + 1⟩ (xs ++ (s.brk, np) :: ys) := by
  have sorted := ok.sorted
  have size := ok.size
  rw [split] at sorted size
  refine ⟨list, ?_, ?_, sorted_insert sorted smaller larger⟩
  · change s.size + 1 = _
    rw [size]
    simp only [List.length_append, List.length_cons]
    omega
  · intro a member
    rw [List.map_append, List.map_cons, List.mem_append, List.mem_cons] at member
    change a < s.brk + 1
    have below := ok.below a
    rw [split, List.map_append, List.mem_append] at below
    rcases member with left | here | right
    · have := below (Or.inl left)
      omega
    · change a = s.brk at here
      omega
    · have := below (Or.inr right)
      omega

/-- `sp_add_point` puts the point in its place. -/
theorem SortedPoints.Ok.add (ok : s.Ok key cells) (x y : α) :
    ∃ s' xs ys, cells = xs ++ ys ∧ spAddPoint key s x y = .ok (1, s') ∧
      s'.Ok key (xs ++ (s.brk, ⟨x, y⟩) :: ys) := by
  have fresh := ok.fresh
  cases cells with
  | nil =>
      have none : s.startLinker = none := ok.list.start
      refine ⟨_, [], [], rfl, if_pos none, ?_⟩
      apply ok.added rfl (fun p member => by cases member) (fun c same => by cases same)
      refine ⟨⟨Function.update_self _ _ _, trivial⟩, ?_, rfl, rfl⟩
      exact List.nodup_singleton _
  | cons d rest =>
      have start : s.startLinker = some d.1 := ok.list.start
      have here : s.heap d.1 = some ⟨d.2, first rest none, none⟩ := ok.list.segment.1
      have other : s.startLinker ≠ none := by simp [start]
      have size := ok.size
      obtain ⟨xs, ys, split, smaller, larger, found⟩ := findPlace_eq key s.heap ⟨x, y⟩ (d :: rest)
        (s.size.toNat + 1) none (by omega) ok.list.segment
      have run : Warmup.spAddPoint key s x y = _ := if_neg other
      rw [start, deref_some here] at run
      change _ = (findPlace key s.heap ⟨x, y⟩ (s.size.toNat + 1) (first (d :: rest) none) none >>=
        _) at run
      rw [found, ok_bind] at run
      dsimp only at run
      have list := ok.list
      rw [split] at list fresh
      rw [start] at list
      cases ys with
      | nil =>
          -- at the end
          obtain ⟨xs, b, rfl⟩ := (List.eq_nil_or_concat' xs).resolve_left fun none => by
            rw [none] at split
            cases split
          rw [List.append_nil] at list fresh
          rw [first_nil, if_pos rfl, last_concat, storeNext_some list.node] at run
          exact ⟨_, xs ++ [b], [], split, run,
            ok.added split smaller larger (list.insert_last fresh)⟩
      | cons e ys =>
          cases xs using List.reverseRecOn with
          | nil =>
              -- at the front
              have apart : e.1 ≠ s.brk := fun same => fresh (by simp [same])
              have head : d = e := List.head_eq_of_cons_eq split
              rw [first_cons, if_neg (by simp), if_pos (by rw [head]), head] at run
              change _ = (storePrior _ (some e.1) (some s.brk) >>= _) at run
              rw [storePrior_some ((Function.update_of_ne apart _ _).trans list.node)] at run
              exact ⟨_, [], e :: ys, split, run,
                ok.added split smaller larger (list.insert_first fresh)⟩
          | append_singleton xs b _ =>
              -- between two linkers
              have outside := list.outside
              have behind := list.node
              have inner : some e.1 ≠ some d.1 := by
                intro same
                have member : d ∈ xs ++ [b] := by
                  cases xs <;> simp [List.head_eq_of_cons_eq split]
                rw [List.map_append, List.mem_append, not_or] at outside
                exact outside.1 (Option.some.inj same ▸ List.mem_map_of_mem member)
              have different : e.1 ≠ b.1 := fun same => outside (by simp [same])
              have list' := list
              have fresh' := fresh
              rw [List.append_assoc] at list' fresh'
              rw [last_concat] at behind
              rw [first_cons, if_neg (by simp), if_neg inner, last_concat,
                storeNext_some list'.node, ok_bind] at run
              change _ =
                (storePrior (Function.update s.heap b.1 _) (some e.1) (some s.brk) >>= _) at run
              rw [storePrior_some ((Function.update_of_ne different _ _).trans behind)] at run
              refine ⟨_, xs ++ [b], e :: ys, split, run, ok.added split smaller larger ?_⟩
              rw [List.append_assoc]
              exact list'.insert_between fresh'

/-- The list after a linker has been taken out. -/
theorem SortedPoints.Ok.removed {xs ys : List (Nat × Point α)} {c : Nat × Point α}
    (ok : s.Ok key (xs ++ c :: ys)) {heap : Heap (Point α)} {start finish : Option Nat}
    (list : IsList heap start finish (xs ++ ys)) :
    SortedPoints.Ok key ⟨start, finish, s.size - 1, heap, s.brk⟩ (xs ++ ys) := by
  have sub : (xs ++ ys).Sublist (xs ++ c :: ys) :=
    List.Sublist.append_left (List.sublist_cons_self c ys) xs
  refine ⟨list, ?_, ?_, ok.sorted.sublist (sub.map Prod.snd)⟩
  · change s.size - 1 = _
    rw [ok.size]
    simp only [List.length_append, List.length_cons]
    omega
  · exact fun a member => ok.below a ((sub.map Prod.fst).subset member)

theorem SortedPoints.Ok.removed_only {c : Nat × Point α} (ok : s.Ok key [c]) :
    SortedPoints.Ok key ⟨none, none, s.size - 1, Function.update s.heap c.1 none, s.brk⟩ [] :=
  SortedPoints.Ok.removed (show s.Ok key ([] ++ c :: []) from ok)
    ⟨trivial, List.nodup_nil, rfl, rfl⟩

theorem SortedPoints.Ok.removeNone (ok : s.Ok key []) :
    spRemoveFirst s = .ok ⟨0, none, s⟩ ∧ spRemoveLast s = .ok ⟨0, none, s⟩ :=
  ⟨if_pos ok.size, if_pos ok.size⟩

theorem SortedPoints.Ok.removeFirst {c : Nat × Point α} {rest : List (Nat × Point α)}
    (ok : s.Ok key (c :: rest)) :
    ∃ s', spRemoveFirst s = .ok ⟨1, some c.2, s'⟩ ∧ s'.Ok key rest := by
  have start : s.startLinker = some c.1 := ok.list.start
  have here := ok.list.segment.1
  have size := ok.size
  rw [List.length_cons] at size
  unfold spRemoveFirst
  rw [if_neg (by omega)]
  cases rest with
  | nil =>
      rw [if_pos (by simpa using size), start, deref_some here, ok_bind, free_some here]
      exact ⟨_, rfl, ok.removed_only⟩
  | cons d rest =>
      have next : s.heap d.1 = some ⟨d.2, first rest none, some c.1⟩ := ok.list.segment.2.1
      have apart : c.1 ≠ d.1 := by
        intro same
        have distinct := ok.list.distinct
        simp [same] at distinct
      rw [List.length_cons] at size
      rw [if_neg (by omega), start, deref_some here, ok_bind, first_cons, storePrior_some next,
        ok_bind, free_some ((Function.update_of_ne apart _ _).trans here)]
      have outside := (show IsList _ _ _ ([] ++ c :: d :: rest) from ok.list).outside
      exact ⟨_, rfl, SortedPoints.Ok.removed (show s.Ok key ([] ++ c :: d :: rest) from ok)
        (ok.list.remove_first.free outside)⟩

theorem SortedPoints.Ok.removeLast {c : Nat × Point α} {before : List (Nat × Point α)}
    (ok : s.Ok key (before ++ [c])) :
    ∃ s', spRemoveLast s = .ok ⟨1, some c.2, s'⟩ ∧ s'.Ok key before := by
  have size := ok.size
  rw [List.length_append, List.length_singleton] at size
  unfold spRemoveLast
  rw [if_neg (by omega)]
  cases before using List.reverseRecOn with
  | nil =>
      have start : s.startLinker = some c.1 := ok.list.start
      have here := ok.list.segment.1
      rw [if_pos (by simpa using size), start, deref_some here, ok_bind, free_some here]
      exact ⟨_, rfl, ok.removed_only⟩
  | append_singleton before b _ =>
      have finish : s.endLinker = some c.1 := ok.list.finish.trans (last_concat _ _ _)
      have here := ok.list.node
      have outside := ok.list.outside
      have apart : c.1 ≠ b.1 := fun same => outside (by simp [same])
      have there : s.heap b.1 = some ⟨b.2, some c.1, last none before⟩ := by
        have list := ok.list
        rw [List.append_assoc] at list
        exact list.node
      rw [List.append_nil] at outside
      rw [List.length_append, List.length_singleton] at size
      rw [if_neg (by omega), finish, deref_some here, ok_bind]
      dsimp only
      rw [last_concat, storeNext_some there, ok_bind,
        free_some ((Function.update_of_ne apart _ _).trans here)]
      have removed := ok.list.remove_last.free outside
      rw [← List.append_nil (before ++ [b])] at removed
      have whole := ok.removed removed
      rw [List.append_nil] at whole
      exact ⟨_, rfl, whole⟩

/-- A linker between two others taken out. -/
theorem SortedPoints.Ok.unlinked {xs ys : List (Nat × Point α)} {c : Nat × Point α}
    (ok : s.Ok key (xs ++ c :: ys)) (several : xs ≠ []) (more : ys ≠ []) :
    ∃ l r before behind, last none xs = some l ∧ first ys none = some r ∧
      s.heap l = some before ∧ s.heap r = some behind ∧ l ≠ r ∧ c.1 ≠ l ∧ c.1 ≠ r ∧
      SortedPoints.Ok key ⟨s.startLinker, s.endLinker, s.size - 1,
        Function.update (Function.update (Function.update s.heap l
          (some { before with next := some r })) r
          (some { behind with prior := some l })) c.1 none, s.brk⟩ (xs ++ ys) := by
  obtain ⟨xs, b, rfl⟩ := (List.eq_nil_or_concat' xs).resolve_left several
  obtain ⟨d, ys, rfl⟩ := List.exists_cons_of_ne_nil more
  have outside := ok.list.outside
  have list := ok.list
  have list' := ok.list
  rw [List.append_assoc] at list
  rw [show xs ++ [b] ++ c :: d :: ys = (xs ++ [b] ++ [c]) ++ d :: ys by simp] at list'
  have left : c.1 ≠ b.1 := fun same => outside (by simp [same])
  have right : c.1 ≠ d.1 := fun same => outside (by simp [same])
  have different : b.1 ≠ d.1 := fun same => list'.outside (by simp [same])
  have behind := list'.node
  rw [last_concat] at behind
  have removed := list.remove_between.free (a := c.1) (by simpa using outside)
  rw [List.append_cons] at removed
  exact ⟨b.1, d.1, _, _, last_concat none xs b, rfl, list.node, behind, different, left, right,
    ok.removed removed⟩

omit [LinearOrder α] in
theorem walk_eq (h : Heap (Point α)) (xs ys : List (Nat × Point α)) :
    ∀ before, Segment h before (xs ++ ys) none →
      walk h xs.length (first (xs ++ ys) none) = .ok (first ys none) := by
  induction xs with
  | nil => exact fun _ _ => rfl
  | cons c xs ih =>
      intro before segment
      have here : h c.1 = some ⟨c.2, first (xs ++ ys) none, before⟩ := segment.1
      change (deref h (some c.1) >>= fun linker => walk h xs.length linker.next) = _
      rw [deref_some here, ok_bind]
      exact ih (some c.1) segment.2

theorem SortedPoints.Ok.removeOutside (ok : s.Ok key cells) {index : Int}
    (outside : index < 0 ∨ (cells.length : Int) ≤ index) :
    spRemoveByIndex s index = .ok ⟨0, none, s⟩ := by
  have size := ok.size
  exact if_pos (by omega)

theorem SortedPoints.Ok.removeByIndex {xs ys : List (Nat × Point α)} {c : Nat × Point α}
    (ok : s.Ok key (xs ++ c :: ys)) :
    ∃ s', spRemoveByIndex s xs.length = .ok ⟨1, some c.2, s'⟩ ∧ s'.Ok key (xs ++ ys) := by
  have size := ok.size
  rw [List.length_append, List.length_cons] at size
  unfold spRemoveByIndex
  rw [if_neg (by omega)]
  by_cases atFront : xs = []
  · subst atFront
    rw [if_pos (by rfl)]
    exact ok.removeFirst
  by_cases atBack : ys = []
  · subst atBack
    have some := List.length_pos_iff.mpr atFront
    rw [if_neg (by omega), if_pos (by rw [size]; simp), List.append_nil]
    exact ok.removeLast
  · have some := List.length_pos_iff.mpr atFront
    have more := List.length_pos_iff.mpr atBack
    have here : s.heap c.1 = _ := ok.list.node
    obtain ⟨l, r, before, behind, last, first, at', at'', different, left, right, whole⟩ :=
      ok.unlinked atFront atBack
    rw [last, first] at here
    have place := walk_eq s.heap xs (c :: ys) none ok.list.segment
    rw [← ok.list.start] at place
    rw [if_neg (by omega), if_neg (by omega), Int.toNat_natCast, place, ok_bind,
      first_cons, deref_some here, ok_bind]
    dsimp only
    rw [storeNext_some at', ok_bind,
      storePrior_some ((Function.update_of_ne different.symm _ _).trans at''), ok_bind,
      free_some (((Function.update_of_ne right _ _).trans
        (Function.update_of_ne left _ _)).trans here)]
    exact ⟨_, rfl, whole⟩

theorem SortedPoints.Ok.not_last {xs ys : List (Nat × Point α)} {c d : Nat × Point α}
    (ok : s.Ok key (xs ++ c :: d :: ys)) : some c.1 ≠ s.endLinker := by
  rw [ok.list.finish, last_append]
  intro last
  have distinct := (List.nodup_cons.mp ok.list.apart.2.1).1
  rcases last_mem (some d.1) ys with none | more
  · rw [last_cons, last_cons, none.2] at last
    exact distinct (by simp [Option.some.inj last])
  · obtain ⟨a, member, found⟩ := more
    rw [last_cons, last_cons, found] at last
    exact distinct (List.mem_cons_of_mem _ (Option.some.inj last ▸ member))

/-- The loop of `sp_delete_duplicates` behind a linker `b`. -/
theorem deleteLoop_eq (ys : List (Nat × Point α)) :
    ∀ (s : SortedPoints α) (xs : List (Nat × Point α)) (b : Nat × Point α) (fuel : Nat) (n : Int),
      s.Ok key (xs ++ b :: ys) → ys.length < fuel →
      ∃ s' rest, deleteLoop fuel s (first ys none) b.2 n =
          .ok (n + (ys.length + 1 - rest.length), s') ∧ s'.Ok key (xs ++ rest) ∧
        rest.map Prod.snd = (ys.map Prod.snd).destutter' (· ≠ ·) b.2 := by
  induction ys with
  | nil =>
      intro s xs b fuel n ok enough
      obtain ⟨fuel, rfl⟩ : ∃ k, fuel = k + 1 := ⟨fuel - 1, by simp at enough; omega⟩
      refine ⟨s, [b], ?_, ok, rfl⟩
      unfold deleteLoop
      rw [first_nil, if_neg (by simp)]
      simp
  | cons d ys ih =>
      intro s xs b fuel n ok enough
      rw [List.length_cons] at enough
      obtain ⟨fuel, rfl⟩ : ∃ k, fuel = k + 1 := ⟨fuel - 1, by omega⟩
      have shape : xs ++ b :: d :: ys = (xs ++ [b]) ++ d :: ys := by simp
      have ok' := ok
      rw [shape] at ok'
      have here : s.heap d.1 = _ := ok'.list.node
      have size := ok.size
      simp only [List.length_append, List.length_cons] at size
      have some : xs ++ [b] ≠ [] := by simp
      unfold deleteLoop
      rw [first_cons, if_pos ⟨by omega, by simp⟩, deref_some here, ok_bind]
      dsimp only
      by_cases same : d.2 = b.2
      · have equal : d.2.x = b.2.x ∧ d.2.y = b.2.y := by simp [same]
        have squeeze : ((d :: ys).map Prod.snd).destutter' (· ≠ ·) b.2 =
            (ys.map Prod.snd).destutter' (· ≠ ·) b.2 :=
          List.destutter'_cons_neg _ (by simp [same])
        rw [if_pos equal, squeeze]
        cases ys with
        | nil =>
            have finish : s.endLinker = Option.some d.1 := by
              rw [ok'.list.finish, last_append]
              rfl
            obtain ⟨s', run, done⟩ := ok'.removeLast
            rw [if_neg (by rw [finish]; simp), run, ok_bind]
            refine ⟨s', [b], ?_, done, rfl⟩
            simp
        | cons e ys =>
            have inner := ok'.not_last
            obtain ⟨l, r, before, behind, last, first', at', at'', different, left, right, whole⟩ :=
              ok'.unlinked some (List.cons_ne_nil e ys)
            rw [if_pos inner, last, first', storePrior_some at'', ok_bind,
              storeNext_some ((Function.update_of_ne different _ _).trans at'), ok_bind,
              free_some (((Function.update_of_ne left _ _).trans
                (Function.update_of_ne right _ _)).trans here), ok_bind,
              Function.update_comm different.symm]
            have shape' : (xs ++ [b]) ++ e :: ys = xs ++ b :: e :: ys := by simp
            rw [shape'] at whole
            rw [List.length_cons] at enough
            obtain ⟨s', rest, run, done, values⟩ := ih _ xs b fuel (n + 1) whole (by simp; omega)
            rw [first'] at run
            refine ⟨s', rest, run.trans ?_, done, values⟩
            congr 2
            simp only [List.length_cons]
            omega
      · have unequal : ¬ (d.2.x = b.2.x ∧ d.2.y = b.2.y) := by
          intro equal
          exact same (Point.ext equal.1 equal.2)
        have keep : ((d :: ys).map Prod.snd).destutter' (· ≠ ·) b.2 =
            b.2 :: (ys.map Prod.snd).destutter' (· ≠ ·) d.2 :=
          List.destutter'_cons_pos _ (fun equal => same equal.symm)
        rw [if_neg unequal, keep]
        obtain ⟨s', rest, run, done, values⟩ := ih s (xs ++ [b]) d fuel n ok' (by omega)
        refine ⟨s', b :: rest, run.trans ?_, ?_, ?_⟩
        · congr 2
          simp only [List.length_cons]
          omega
        · rw [List.append_assoc] at done
          exact done
        · rw [List.map_cons, values]

end Operations

end Ece344Lab.Warmup
