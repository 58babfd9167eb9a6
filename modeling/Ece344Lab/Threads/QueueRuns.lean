import Ece344Lab.Threads.WaitQueues

set_option autoImplicit false

/- The queue as a list, over any sequence of operations on it, and what that means for the threads
that wait in one. -/
namespace Ece344Lab.Threads

open Chain Outcome State
open Linked (first last last_eq_getLast?)

variable {α : Type} {q q' : Queue α} {xs : List α} {cells : List (Nat × α)}

/-- The three descriptions of a queue agree with each other and with a list. -/
structure Queue.Refines (q : Queue α) (xs : List α) : Prop where
  walk : ∃ nodes, Walk q.linkers q.startLinker nodes ∧ (nodes.map Prod.fst).Nodup ∧
    q.size = nodes.length ∧ q.endLinker = (nodes.map Prod.fst).getLast? ∧
    nodes.map Prod.snd = xs

/-- The queues that operations lead to, with the lists they stand for. `Queue_top` leaves the queue
as it is. -/
inductive Queue.Run : Queue α → List α → Prop
  | new : Run queueNew []
  | push {q q' : Queue α} {xs : List α} {ret : Int} (before : Run q xs) (p : α)
      (run : queuePush q p = .ok (ret, q')) : Run q' (xs ++ [p])
  | pop {q q' : Queue α} {x : α} {xs : List α} {ret : Int} (before : Run q (x :: xs))
      (run : queuePop q = .ok (ret, q')) : Run q' xs
  | top {q : Queue α} {x y : α} {xs : List α} (before : Run q (x :: xs))
      (run : queueTop q = .ok y) : Run q (x :: xs)
  | movetop {q q' : Queue α} {xs : List α} {ret : Int} (before : Run q xs) (pos : Int)
      (run : queueMovetop q pos = .ok (ret, q')) : Run q' (movedTop xs pos)

theorem length_movedTop (xs : List α) (pos : Int) : (movedTop xs pos).length = xs.length := by
  unfold movedTop
  split
  · rfl
  · cases found : xs[pos.toNat]? with
    | none => rfl
    | some x =>
        obtain ⟨inside, _⟩ := List.getElem?_eq_some_iff.mp found
        rw [List.length_cons, List.length_eraseIdx_of_lt inside]
        omega

/-- A queue whose end pointer is right even when it is empty. -/
structure Queue.Tight (q : Queue α) (cells : List (Nat × α)) : Prop where
  ok : q.Ok cells
  finish : q.endLinker = last none cells

namespace Queue.Tight

variable {c : Nat × α} {ys : List (Nat × α)}

theorem of_ne_nil (ok : q.Ok cells) (more : cells ≠ []) : q.Tight cells := ⟨ok, ok.finish more⟩

theorem refines (tight : q.Tight cells) : q.Refines (cells.map Prod.snd) :=
  ⟨cells, tight.ok.chain.walk, tight.ok.chain.distinct, tight.ok.size,
    tight.finish.trans ((last_eq_getLast? none cells).trans (Option.or_none)), rfl⟩

theorem new : (queueNew : Queue α).Tight [] := ⟨.new, rfl⟩

theorem push (tight : q.Tight cells) (p : α) :
    ∃ q', queuePush q p = .ok (1, q') ∧ q'.Tight (cells ++ [(q.brk, p)]) := by
  obtain ⟨q', pushed, ok⟩ := tight.ok.push p
  exact ⟨q', pushed, of_ne_nil ok (by simp)⟩

theorem pop (tight : q.Tight (c :: ys)) : ∃ q', queuePop q = .ok (1, q') ∧ q'.Tight ys := by
  obtain ⟨q', popped, ok⟩ := tight.ok.pop
  refine ⟨q', popped, ok, ?_⟩
  cases ys with
  | nil =>
      -- the only linker has been taken out, and both pointers are reset
      have node : q.linkers c.1 = some ⟨c.2, none⟩ := tight.ok.here (l := [])
      unfold queuePop at popped
      rw [if_pos (show q.size = 1 from tight.ok.size), tight.ok.start, free_some node,
        ok_bind] at popped
      cases popped
      rfl
  | cons d ys => exact ok.finish (by simp)

theorem movetop (tight : q.Tight cells) (pos : Int) :
    ∃ ret q' cells', queueMovetop q pos = .ok (ret, q') ∧ q'.Tight cells' ∧
      cells'.map Prod.snd = movedTop (cells.map Prod.snd) pos := by
  obtain ⟨ret, q', cells', moved, ok, values⟩ := tight.ok.movetop pos
  have size : cells'.length = cells.length := by
    have length := congrArg List.length values
    rwa [length_movedTop, List.length_map, List.length_map] at length
  refine ⟨ret, q', cells', moved, ?_, values⟩
  cases cells with
  | cons c ys => exact of_ne_nil ok fun none => by simp [none] at size
  | nil =>
      -- nothing is moved in an empty queue
      obtain rfl : cells' = [] := List.length_eq_zero_iff.mp size
      have same : q' = q := by
        have empty : q.size = 0 := tight.ok.size
        unfold queueMovetop at moved
        by_cases negative : pos < 0
        · rw [if_pos negative] at moved
          cases moved
          rfl
        · by_cases zero : pos = 0
          · rw [if_neg negative, if_pos zero] at moved
            cases moved
            rfl
          · rw [if_neg negative, if_neg zero, if_neg (by omega), if_pos (by omega)] at moved
            cases moved
            rfl
      exact same ▸ tight

end Queue.Tight

theorem Queue.Run.tight (run : Queue.Run q xs) :
    ∃ cells, q.Tight cells ∧ cells.map Prod.snd = xs := by
  induction run with
  | new => exact ⟨[], .new, rfl⟩
  | push before p run ih =>
      obtain ⟨cells, tight, rfl⟩ := ih
      obtain ⟨q', pushed, tight'⟩ := tight.push p
      rw [run] at pushed
      cases pushed
      exact ⟨_, tight', List.map_append⟩
  | pop before run ih =>
      obtain ⟨cells, tight, same⟩ := ih
      obtain ⟨c, ys, rfl, rfl, rfl⟩ := List.map_eq_cons_iff.mp same
      obtain ⟨q', popped, tight'⟩ := tight.pop
      rw [run] at popped
      cases popped
      exact ⟨ys, tight', rfl⟩
  | top before run ih => exact ih
  | movetop before pos run ih =>
      obtain ⟨cells, tight, rfl⟩ := ih
      obtain ⟨ret, q', cells', moved, tight', values⟩ := tight.movetop pos
      rw [run] at moved
      cases moved
      exact ⟨cells', tight', values⟩

section Wakeup

variable {s s' : State} {w : WaitQueue} {all : Int} {k : List Frame} {fuel : Nat}

def woken (all : Int) (waiting : List Nat) : List Nat :=
  if all = 1 then waiting else waiting.take 1

/-- The threads have been moved in their order, and their number is returned. -/
structure Woke (w : WaitQueue) (all : Int) (s s' : State) : Prop where
  ready : s'.ready = s.ready ++ woken all (s.waiting w)
  waiting : s'.waiting w = (s.waiting w).drop (woken all (s.waiting w)).length
  others : ∀ v, v ≠ w → s'.waiting v = s.waiting v
  value : s'.log.head? = some (.ret s.running (.threadWakeup (some w) all)
    (some (woken all (s.waiting w)).length) s.enabled)

/-- `thread_wakeup` moves the threads that wait to the ready queue in their order. -/
theorem threadWakeup_woke (w : WaitQueue) (all : Int) (k : List Frame) (s : State) :
    Returns (threadWakeup (some w) all k s) (Woke w all s) := by
  by_cases every : all = 1
  · subst every
    obtain ⟨s', runs, wakes, _, _, value⟩ := threadWakeup_all w k s
    have whole : woken 1 (s.waiting w) = s.waiting w := if_pos rfl
    refine ⟨s', runs, ?_, ?_, wakes.others, ?_⟩
    · rw [whole, wakes.ready]
    · rw [whole, wakes.waiting, List.drop_length]
    · rw [whole, value]
  · have one : woken all (s.waiting w) = (s.waiting w).take 1 := if_neg every
    cases waits : s.waiting w with
    | nil =>
        obtain ⟨s', runs, wakes, _, _, value⟩ := threadWakeup_none k waits all
        rw [waits] at one
        refine ⟨s', runs, ?_, ?_, wakes.others, ?_⟩ <;> rw [waits, one]
        · exact wakes.ready
        · exact wakes.waiting
        · exact value
    | cons t rest =>
        obtain ⟨s', runs, wakes, _, _, value⟩ := threadWakeup_one k waits every
        rw [waits] at one
        refine ⟨s', runs, ?_, ?_, wakes.others, ?_⟩ <;> rw [waits, one]
        · exact wakes.ready
        · exact wakes.waiting
        · exact value

end Wakeup

/-- After any sequence of operations the queue is the list, and so it is after one more. Threads
that sleep join the list of their queue at its end; `thread_wakeup` moves them from its start, in
order, and returns how many. -/
theorem thread_queue_run (run : Queue.Run q xs) :
    q.Refines xs ∧
      (∀ p, Returns (queuePush q p) fun pushed => pushed.1 = 1 ∧ pushed.2.Refines (xs ++ [p])) ∧
      (∀ x rest, xs = x :: rest → queueTop q = .ok x ∧
        Returns (queuePop q) fun popped => popped.1 = 1 ∧ popped.2.Refines rest) ∧
      (∀ pos, Returns (queueMovetop q pos) fun moved => moved.2.Refines (movedTop xs pos)) ∧
      (∀ w all k s, Returns (threadWakeup (some w) all k s) (Woke w all s)) ∧
      ∀ w k s u rest, s.ready = s.running :: u :: rest →
        s.status s.running = .new ∨ s.status s.running = .run →
        Returns (threadSleep (some w) k s) fun s' => s'.waiting w = s.waiting w ++ [s.running] := by
  obtain ⟨cells, tight, rfl⟩ := run.tight
  refine ⟨tight.refines, fun p => ?_, fun x rest same => ?_, fun pos => ?_, threadWakeup_woke,
    fun w k s u rest lists active => ?_⟩
  · obtain ⟨q', pushed, tight'⟩ := tight.push p
    have refines := tight'.refines
    rw [List.map_append] at refines
    exact ⟨_, pushed, rfl, refines⟩
  · obtain ⟨c, ys, rfl, rfl, rfl⟩ := List.map_eq_cons_iff.mp same
    obtain ⟨q', popped, tight'⟩ := tight.pop
    exact ⟨tight.ok.top, _, popped, rfl, tight'.refines⟩
  · obtain ⟨ret, q', cells', moved, tight', values⟩ := tight.movetop pos
    exact ⟨_, moved, values ▸ tight'.refines⟩
  · obtain ⟨s', runs, _, joins, _⟩ := threadSleep_sleeps k lists active w
    exact ⟨s', runs, joins⟩

/-- Three threads are pushed, the last one is moved to the front, and the front is taken out. -/
theorem thread_queue_run_three : ∃ q : Queue Nat, Queue.Run q [1, 2] ∧
    q.Refines [1, 2] ∧
      (∀ p, Returns (queuePush q p) fun pushed => pushed.1 = 1 ∧ pushed.2.Refines ([1, 2] ++ [p])) ∧
      (∀ x rest, [1, 2] = x :: rest → queueTop q = .ok x ∧
        Returns (queuePop q) fun popped => popped.1 = 1 ∧ popped.2.Refines rest) ∧
      (∀ pos, Returns (queueMovetop q pos) fun moved => moved.2.Refines (movedTop [1, 2] pos)) ∧
      (∀ w all k s, Returns (threadWakeup (some w) all k s) (Woke w all s)) ∧
      ∀ w k s u rest, s.ready = s.running :: u :: rest →
        s.status s.running = .new ∨ s.status s.running = .run →
        Returns (threadSleep (some w) k s) fun s' => s'.waiting w = s.waiting w ++ [s.running] := by
  obtain ⟨q₁, first, tight₁⟩ := Queue.Tight.new.push 1
  obtain ⟨q₂, second, tight₂⟩ := tight₁.push 2
  obtain ⟨q₃, third, tight₃⟩ := tight₂.push 3
  obtain ⟨ret, q₄, cells, moved, tight₄, values⟩ := tight₃.movetop 2
  have run := (((Queue.Run.new.push 1 first).push 2 second).push 3 third).movetop 2 moved
  obtain ⟨c, ys, rfl, _, _⟩ :=
    List.map_eq_cons_iff.mp (values.trans (show _ = 3 :: [1, 2] from rfl))
  obtain ⟨q₅, popped, _⟩ := tight₄.pop
  have run' : Queue.Run q₅ [1, 2] := run.pop popped
  exact ⟨q₅, run', thread_queue_run run'⟩

end Ece344Lab.Threads
