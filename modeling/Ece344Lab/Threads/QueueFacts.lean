import Ece344Lab.Threads.Queue
import Mathlib.Data.List.Induction

set_option autoImplicit false

/- Each operation on a queue does to the sequence of its linkers what it says. -/
namespace Ece344Lab.Threads

open Chain Outcome
open Linked (first last first_append last_append last_mem last_cons last_nil first_cons)

variable {α : Type} {q : Queue α} {cells xs ys : List (Nat × α)} {b c : Nat × α}

namespace Queue.Ok

theorem new : (queueNew : Queue α).Ok [] := ⟨isChain_nil _, fun none => absurd rfl none, rfl, nofun⟩

theorem start (ok : q.Ok (c :: ys)) : q.startLinker = some c.1 := ok.chain.start

theorem here {l : List (Nat × α)} (ok : q.Ok (l ++ c :: ys)) :
    q.linkers c.1 = some ⟨c.2, first ys none⟩ := ok.chain.node

theorem ends (ok : q.Ok (xs ++ [b])) : q.endLinker = some b.1 := by
  rw [ok.finish (by simp), last_append]
  rfl

theorem below_succ (ok : q.Ok cells) (p : α) :
    ∀ a ∈ (cells ++ [(q.brk, p)]).map Prod.fst, a < q.brk + 1 := by
  intro a member
  rw [List.map_append, List.mem_append] at member
  cases member with
  | inl old => exact Nat.lt_succ_of_lt (ok.below a old)
  | inr new => exact List.mem_singleton.mp new ▸ Nat.lt_succ_self _

theorem push (ok : q.Ok cells) (p : α) :
    ∃ q', queuePush q p = .ok (1, q') ∧ q'.Ok (cells ++ [(q.brk, p)]) := by
  have fresh : q.brk ∉ cells.map Prod.fst := fun member => Nat.lt_irrefl _ (ok.below _ member)
  have size := ok.size
  unfold queuePush
  dsimp only
  cases cells using List.reverseRecOn with
  | nil =>
      rw [if_pos (show q.size = 0 from size)]
      refine ⟨_, rfl, ⟨⟨Function.update_self _ _ _, trivial⟩, List.nodup_singleton _, rfl⟩,
        fun _ => rfl, ?_, ok.below_succ p⟩
      change q.size + 1 = _
      rw [size]
      rfl
  | append_singleton cells b _ =>
      rw [List.length_append, List.length_singleton] at size
      have apart : b.1 ≠ q.brk := fun same => fresh (by simp [same])
      have old : q.linkers b.1 = some ⟨b.2, none⟩ := ok.here
      rw [if_neg (by omega), ok.ends,
        storeNext_some ((Function.update_of_ne apart _ _).trans old)]
      refine ⟨_, rfl, ?_, ?_, ?_, ok.below_succ p⟩
      · have kept : IsChain (Function.update q.linkers q.brk (some ⟨p, none⟩)) q.startLinker
            (cells ++ [b]) := by
          apply ok.chain.congr
          intro a member
          have other : a ≠ q.brk := fun same => fresh (same ▸ member)
          exact Function.update_of_ne other _ _
        exact kept.append (c := (q.brk, p)) fresh (Function.update_self _ _ _)
      · intro _
        rw [last_append]
        rfl
      · change q.size + 1 = _
        rw [size]
        simp only [List.length_append, List.length_singleton]
        omega

/-- The linkers behind the first one, when the first one has been freed. -/
theorem freed (ok : q.Ok (c :: ys)) :
    IsChain (Function.update q.linkers c.1 none) (first ys none) ys :=
  ok.chain.tail.freed (List.nodup_cons.mp ok.chain.distinct).1

theorem pop (ok : q.Ok (c :: ys)) : ∃ q', queuePop q = .ok (1, q') ∧ q'.Ok ys := by
  have size := ok.size
  rw [List.length_cons] at size
  have old : q.linkers c.1 = some ⟨c.2, first ys none⟩ := ok.here (l := [])
  unfold queuePop
  rw [ok.start, free_some old]
  have below : ∀ a ∈ ys.map Prod.fst, a < q.brk :=
    fun a member => ok.below a (List.mem_cons_of_mem _ member)
  cases ys with
  | nil =>
      rw [if_pos (by simpa using size)]
      refine ⟨_, rfl, isChain_nil _, fun none => absurd rfl none, ?_, below⟩
      change q.size - 1 = _
      rw [size]
      rfl
  | cons d ys =>
      rw [List.length_cons] at size
      rw [if_neg (by omega), deref_some old]
      refine ⟨_, rfl, ok.freed, fun _ => ok.finish (by simp), ?_, below⟩
      change q.size - 1 = _
      rw [size, List.length_cons]
      omega

theorem pop_nil (ok : q.Ok []) : queuePop q = .error .undefined := by
  have size := ok.size
  have start : q.startLinker = none := ok.chain.start
  unfold queuePop
  rw [size, if_neg (by simp), start]
  rfl

theorem top (ok : q.Ok (c :: ys)) : queueTop q = .ok c.2 := by
  unfold queueTop
  rw [ok.start, deref_some (ok.here (l := []))]
  rfl

theorem second (ok : q.Ok (b :: c :: ys)) : queueSecond q = .ok c.2 := by
  unfold queueSecond
  rw [ok.start, deref_some (ok.here (l := [])), ok_bind]
  dsimp only
  rw [first_cons, deref_some (ok.here (l := [b]))]
  rfl

theorem ended (ok : q.Ok (c :: ys)) : queueEnded q = .ok true := by
  obtain ⟨front, b, split⟩ : ∃ front b, c :: ys = front ++ [b] :=
    ⟨_, _, (List.dropLast_append_getLast (List.cons_ne_nil c ys)).symm⟩
  rw [split] at ok
  unfold queueEnded
  rw [ok.ends, deref_some (show q.linkers b.1 = some ⟨b.2, none⟩ from ok.here)]
  rfl

end Queue.Ok

/-- Either nothing in a list passes a test, or the list is cut at the first one that does. -/
theorem first_passing {β : Type} (items : List β) (test : β → Bool) :
    (∀ d ∈ items, test d = false) ∨ ∃ xs c ys, items = xs ++ c :: ys ∧
      (∀ d ∈ xs, test d = false) ∧ test c = true := by
  induction items with
  | nil => exact Or.inl nofun
  | cons d items ih =>
      by_cases passes : test d = true
      · exact Or.inr ⟨[], d, items, rfl, nofun, passes⟩
      · have fails : test d = false := by simpa using passes
        cases ih with
        | inl none =>
            refine Or.inl fun e member => ?_
            cases List.mem_cons.mp member with
            | inl same => exact same ▸ fails
            | inr later => exact none e later
        | inr some =>
            obtain ⟨xs, c, ys, split, earlier, found⟩ := some
            refine Or.inr ⟨d :: xs, c, ys, by rw [split]; rfl, fun e member => ?_, found⟩
            cases List.mem_cons.mp member with
            | inl same => exact same ▸ fails
            | inr later => exact earlier e later

theorem last_two {β : Type} {l : List β} (long : 1 < l.length) :
    ∃ xs b c, l = xs ++ [b, c] := by
  cases l using List.reverseRecOn with
  | nil => cases long
  | append_singleton front c _ =>
      cases front using List.reverseRecOn with
      | nil => exact absurd long (by simp)
      | append_singleton xs b _ => exact ⟨xs, b, c, by simp⟩

section Loops

variable {h : Heap α}

theorem movetopLoop_walks {ds : List (Nat × α)}
    (segment : Segment h (ds ++ c :: ys) none) (b : Nat) :
    movetopLoop h ds.length (some b) (first (ds ++ c :: ys) none) =
      .ok (last (some b) ds, some c.1) := by
  induction ds generalizing b with
  | nil => rfl
  | cons d ds ih =>
      change movetopLoop h (ds.length + 1) (some b) (some d.1) = _
      rw [movetopLoop, deref_some segment.1]
      exact ih segment.2 d.1

/-- The search loops pass the cells that fail the test. -/
theorem searchLoop_passes {test : α → Bool} {after prior : Option Nat} {fuel position : Nat}
    (segment : Segment h xs after) (fails : ∀ d ∈ xs, test d.2 = false) :
    searchLoop h test (fuel + xs.length) position prior (first xs after) =
      searchLoop h test fuel (position + xs.length) (last prior xs) after := by
  induction xs generalizing prior position with
  | nil => rfl
  | cons d xs ih =>
      change searchLoop h test (fuel + xs.length + 1) position prior (some d.1) = _
      rw [searchLoop, if_neg (by simp), deref_some segment.1, ok_bind, fails d (by simp)]
      rw [if_neg (by simp), ih segment.2 fun e member => fails e (List.mem_cons_of_mem _ member)]
      congr 1
      simp only [List.length_cons]
      omega

theorem lastLoop_passes (fuel : Nat) (prior : Option Nat) (segment : Segment h (xs ++ [c]) none) :
    lastLoop h (fuel + xs.length + 1) prior (first (xs ++ [c]) none) =
      .ok (last prior xs, some c.1) := by
  induction xs generalizing prior with
  | nil =>
      change lastLoop h (fuel + 1) prior (some c.1) = _
      rw [lastLoop, deref_some segment.1, ok_bind]
      rfl
  | cons d xs ih =>
      change lastLoop h (fuel + xs.length + 1 + 1) prior (some d.1) = _
      have more : first (xs ++ [c]) none ≠ none := by cases xs <;> simp
      rw [lastLoop, deref_some segment.1, ok_bind]
      exact (if_neg more).trans (ih _ segment.2)

end Loops

namespace Queue.Ok

theorem movetopLoop_stops (ok : q.Ok (b :: xs ++ c :: ys)) :
    movetopLoop q.linkers xs.length q.startLinker (first (xs ++ c :: ys) none) =
      .ok (last (some b.1) xs, some c.1) := by
  rw [ok.start]
  exact movetopLoop_walks ok.chain.segment.2 b.1

/-- A linker in the middle is moved to the front. -/
theorem movetop_inside (ok : q.Ok (b :: xs ++ c :: ys)) :
    ∃ q', queueMovetop q (xs.length + 1 : Nat) = .ok (1, q') ∧ q'.Ok (c :: b :: xs ++ ys) := by
  obtain ⟨front, d, split⟩ : ∃ front d, b :: xs = front ++ [d] :=
    ⟨_, _, (List.dropLast_append_getLast (List.cons_ne_nil b xs)).symm⟩
  have before : last (some b.1) xs = some d.1 := by
    change last none (b :: xs) = _
    rw [split, last_append]
    rfl
  have size := ok.size
  have walks := ok.movetopLoop_stops
  have start : q.startLinker = some b.1 := ok.start
  have first' : q.linkers b.1 = some ⟨b.2, first (xs ++ c :: ys) none⟩ := ok.here (l := [])
  have node : q.linkers c.1 = some ⟨c.2, first ys none⟩ := ok.here
  have finish := ok.finish (by simp)
  have below := ok.below
  have chain := ok.chain
  have apart := chain.apart.2.2
  rw [split] at chain apart finish below ⊢
  rw [List.append_assoc, List.singleton_append] at chain
  have node' : q.linkers d.1 = some ⟨d.2, some c.1⟩ := chain.node
  have other : c.1 ≠ d.1 := fun same => apart d.1 (by simp) (by simp [same])
  simp only [List.cons_append, List.length_cons, List.length_append] at size
  unfold queueMovetop
  rw [if_neg (by omega), if_neg (by omega), if_neg (by omega), if_neg (by omega), start,
    deref_some first', ok_bind, show ((xs.length + 1 : Nat) : Int).toNat - 1 = xs.length by omega,
    ← start, walks, ok_bind]
  dsimp only
  rw [before, deref_some node, ok_bind, storeNext_some node', ok_bind,
    storeNext_some ((Function.update_of_ne other _ _).trans node)]
  have same : c :: (front ++ [d]) ++ ys = c :: (front ++ d :: ys) := by simp
  refine ⟨_, rfl, ?_, ?_, ?_, ?_⟩
  · rw [same]
    exact chain.moveFront
  · intro _
    rw [last_append, finish, last_append, last_cons, last_cons]
    cases ys with
    | nil =>
        rw [last_nil, if_pos rfl, last_append]
        rfl
    | cons e ys =>
        have behind : last (some c.1) (e :: ys) ≠ some c.1 :=
          IsChain.last_ne (l := front ++ [d]) (by simpa using chain) (by simp)
        rw [if_neg behind.symm]
        rfl
  · rw [size]
    simp only [List.cons_append, List.length_cons, List.length_append, List.length_nil]
    have lengths := congrArg List.length split
    simp only [List.length_cons, List.length_append, List.length_nil] at lengths
    omega
  · intro a member
    apply below a
    simp only [List.cons_append, List.map_cons, List.map_append, List.mem_cons,
      List.mem_append] at member ⊢
    tauto

theorem movetop (ok : q.Ok cells) (pos : Int) :
    ∃ r q' cells', queueMovetop q pos = .ok (r, q') ∧ q'.Ok cells' ∧
      cells'.map Prod.snd = movedTop (cells.map Prod.snd) pos := by
  have size := ok.size
  by_cases negative : pos < 0
  · refine ⟨0, q, cells, ?_, ok, ?_⟩
    · unfold queueMovetop
      rw [if_pos negative]
    · rw [movedTop, if_pos (by omega)]
  by_cases zero : pos = 0
  · refine ⟨1, q, cells, ?_, ok, ?_⟩
    · unfold queueMovetop
      rw [if_neg negative, if_pos zero]
    · rw [movedTop, if_pos (by omega)]
  obtain ⟨n, rfl⟩ : ∃ n : Nat, pos = n + 1 := ⟨(pos - 1).toNat, by omega⟩
  have index : ((n : Int) + 1).toNat = n + 1 := by omega
  by_cases inside : n + 1 < cells.length
  · obtain ⟨b, rest, rfl⟩ : ∃ b rest, cells = b :: rest := by
      cases cells with
      | nil => cases inside
      | cons b rest => exact ⟨b, rest, rfl⟩
    rw [List.length_cons] at inside
    have within : n < rest.length := by omega
    have split : b :: rest = b :: rest.take n ++ rest[n] :: rest.drop (n + 1) := by
      rw [List.cons_append, List.getElem_cons_drop, List.take_append_drop]
    have length : (rest.take n).length = n := List.length_take_of_le (by omega)
    rw [split] at ok
    obtain ⟨q', moved, ok'⟩ := ok.movetop_inside
    rw [length] at moved
    refine ⟨1, q', _, moved, ok', ?_⟩
    rw [movedTop, if_neg (by omega), index]
    simp [within, List.eraseIdx_eq_take_drop_succ, List.map_take, List.map_drop]
  · refine ⟨if q.size = 1 then 1 else 0, q, cells, ?_, ok, ?_⟩
    · unfold queueMovetop
      rw [if_neg negative, if_neg zero]
      split
      · rfl
      · rw [if_pos (by omega)]
    · have none : (cells.map Prod.snd)[n + 1]? = none := by
        rw [List.getElem?_eq_none_iff, List.length_map]
        omega
      rw [movedTop, if_neg (by omega), index, none]

section Search

variable {test : α → Bool}

theorem search_none (ok : q.Ok cells) (fails : ∀ d ∈ cells, test d.2 = false) :
    queueSearch q test = .ok none := by
  unfold queueSearch
  rw [ok.size, ok.chain.start, Int.toNat_natCast, Nat.add_comm,
    searchLoop_passes ok.chain.segment fails, searchLoop, if_pos rfl]

theorem search_some (ok : q.Ok (xs ++ c :: ys)) (fails : ∀ d ∈ xs, test d.2 = false)
    (passes : test c.2 = true) :
    queueSearch q test = .ok (some ⟨xs.length, last none xs, some c.1, c.2⟩) := by
  have front := ((segment_append _ _ _ _).mp ok.chain.segment).1
  unfold queueSearch
  rw [ok.size, ok.chain.start, Int.toNat_natCast, List.length_append, List.length_cons,
    first_append, show xs.length + (ys.length + 1) + 1 = ys.length + 2 + xs.length by omega,
    searchLoop_passes front fails, first_cons, searchLoop, if_neg (by simp), deref_some ok.here,
    ok_bind, passes, if_pos rfl, Nat.zero_add]

end Search

/-- The linker found is taken out, wherever it stands. -/
theorem splice (ok : q.Ok (xs ++ c :: ys)) (position : Nat) :
    ∃ q', exitSplice q ⟨position, last none xs, some c.1, c.2⟩ = .ok q' ∧ q'.Ok (xs ++ ys) := by
  have size := ok.size
  have node := ok.here
  have finish := ok.finish (by simp)
  rw [List.length_append, List.length_cons] at size
  have below : ∀ a ∈ (xs ++ ys).map Prod.fst, a < q.brk := by
    intro a member
    apply ok.below a
    simp only [List.map_append, List.map_cons, List.mem_append, List.mem_cons] at member ⊢
    tauto
  have fewer : q.size - 1 = ((xs ++ ys).length : Int) := by
    rw [size, List.length_append]
    omega
  unfold exitSplice
  rw [deref_some node, ok_bind]
  dsimp only
  cases xs using List.reverseRecOn with
  | nil =>
      rw [if_pos ok.start.symm, ok_bind, free_some node]
      refine ⟨_, rfl, ok.freed, ?_, fewer, below⟩
      intro more
      rw [finish]
      cases ys with
      | nil => exact absurd rfl more
      | cons e ys => rfl
  | append_singleton front b _ =>
      have chain : IsChain q.linkers q.startLinker (front ++ b :: c :: ys) := by
        simpa using ok.chain
      have other : b.1 ≠ c.1 := fun same => ok.chain.apart.2.2 b.1 (by simp) (by simp [same])
      have node' : q.linkers b.1 = some ⟨b.2, some c.1⟩ := chain.node
      have before : last none (front ++ [b]) = some b.1 := by
        rw [last_append]
        rfl
      have rest : IsChain (Function.update (Function.update q.linkers b.1
          (some ⟨b.2, first ys none⟩)) c.1 none) q.startLinker (front ++ [b] ++ ys) := by
        rw [List.append_assoc, List.singleton_append]
        apply chain.remove.freed
        have apart := ok.chain.apart
        rw [show front ++ b :: ys = (front ++ [b]) ++ ys by simp, List.map_append, List.mem_append,
          not_or]
        exact ⟨fun member => apart.2.2 _ member (by simp), (List.nodup_cons.mp apart.2.1).1⟩
      rw [if_neg (ok.chain.ne_start (by simp)).symm, before]
      cases ys with
      | nil =>
          rw [if_pos ok.ends.symm, storeNext_some node', ok_bind, ok_bind,
            free_some ((Function.update_of_ne other.symm _ _).trans node)]
          exact ⟨_, rfl, rest, fun _ => by rw [List.append_nil, before], fewer, below⟩
      | cons e ys =>
          have inside : some c.1 ≠ q.endLinker := by
            rw [finish, last_append]
            exact (ok.chain.last_ne (by simp)).symm
          rw [if_neg inside, storeNext_some node', ok_bind, ok_bind,
            free_some ((Function.update_of_ne other.symm _ _).trans node)]
          refine ⟨_, rfl, rest, fun _ => ?_, fewer, below⟩
          change q.endLinker = _
          rw [finish]
          simp only [last_append, last_cons]

theorem exitFound_none {test : α → Bool} (ok : q.Ok cells) (fails : ∀ d ∈ cells, test d.2 = false) :
    exitFound q test = .ok (none, q) := by
  unfold exitFound
  rw [ok.search_none fails]
  rfl

theorem exitFound_some {test : α → Bool} (ok : q.Ok (xs ++ c :: ys))
    (fails : ∀ d ∈ xs, test d.2 = false) (passes : test c.2 = true) :
    ∃ q', exitFound q test = .ok (some c.2, q') ∧ q'.Ok (xs ++ ys) := by
  obtain ⟨q', spliced, ok'⟩ := ok.splice xs.length
  refine ⟨q', ?_, ok'⟩
  unfold exitFound
  rw [ok.search_some fails passes, ok_bind]
  dsimp only
  rw [spliced]
  rfl

theorem exitLast_last (ok : q.Ok (xs ++ [b, c])) :
    ∃ q', exitLast q = .ok (c.2, q') ∧ q'.Ok (xs ++ [b]) := by
  have size := ok.size
  have split : xs ++ [b, c] = (xs ++ [b]) ++ [c] := by simp
  have node' : q.linkers b.1 = some ⟨b.2, some c.1⟩ := ok.chain.node
  have removed := ok.chain.remove
  have below : ∀ a ∈ (xs ++ [b]).map Prod.fst, a < q.brk := by
    intro a member
    apply ok.below a
    rw [split, List.map_append, List.mem_append]
    exact Or.inl member
  rw [split] at ok
  have node : q.linkers c.1 = some ⟨c.2, none⟩ := ok.here
  have apart := ok.chain.apart
  have other : c.1 ≠ b.1 := fun same => apart.2.2 b.1 (by simp) (by simp [same])
  have before : last none (xs ++ [b]) = some b.1 := by
    rw [last_append]
    rfl
  have walks := lastLoop_passes 1 none ok.chain.segment
  rw [before, ← ok.chain.start] at walks
  simp only [List.length_append, List.length_cons, List.length_nil] at size walks
  unfold exitLast
  rw [show q.size.toNat + 1 = 1 + (xs.length + (0 + 1)) + 1 by omega, walks, ok_bind]
  dsimp only
  have freed := (Function.update_of_ne other (some ⟨b.2, none⟩) q.linkers).trans node
  rw [storeNext_some node', ok_bind, deref_some freed, ok_bind, free_some freed]
  refine ⟨_, rfl, removed.freed (fun member => apart.2.2 _ member (by simp)),
    fun _ => before.symm, ?_, below⟩
  change q.size - 1 = _
  rw [size]
  simp only [List.length_append, List.length_cons, List.length_nil]
  omega

/-- `NULL` is used when there is no linker before the last one. -/
theorem exitLast_short (ok : q.Ok cells) (short : cells.length ≤ 1) :
    exitLast q = .error .undefined := by
  have size := ok.size
  unfold exitLast
  match cells, short with
  | [], _ =>
      have start : q.startLinker = none := ok.chain.start
      rw [size, start]
      rfl
  | [c], _ =>
      have walks :=
        lastLoop_passes 1 none (show Segment q.linkers ([] ++ [c]) none from ok.chain.segment)
      rw [List.nil_append, ← ok.chain.start] at walks
      rw [size, show Int.toNat (([c] : List (Nat × α)).length : Int) + 1 = 1 + 0 + 1 from rfl]
      rw [show 1 + ([] : List (Nat × α)).length + 1 = 1 + 0 + 1 from rfl] at walks
      rw [walks]
      rfl

end Queue.Ok

end Ece344Lab.Threads
