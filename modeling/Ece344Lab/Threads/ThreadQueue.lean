import Ece344Lab.Threads.QueueFacts

set_option autoImplicit false

/- Queues of threads that are well linked, with what the operations do to the threads in them. A
thread is known by its address. -/
namespace Ece344Lab.Threads

open Chain Outcome

/-- A queue whose linkers hang together. -/
structure ThreadQueue where
  queue : Queue Nat
  linked : ∃ cells, queue.Ok cells

namespace ThreadQueue

def threads (q : ThreadQueue) : List Nat :=
  values q.queue.linkers q.queue.size.toNat q.queue.startLinker

theorem threads_of_ok {q : ThreadQueue} {cells : List (Nat × Nat)} (ok : q.queue.Ok cells) :
    q.threads = cells.map Prod.snd := by
  rw [threads, ok.size, ok.chain.start, Int.toNat_natCast]
  exact ok.chain.segment.values

theorem exists_cells (q : ThreadQueue) :
    ∃ cells, q.queue.Ok cells ∧ q.threads = cells.map Prod.snd := by
  obtain ⟨cells, ok⟩ := q.linked
  exact ⟨cells, ok, threads_of_ok ok⟩

/-- An operation whose outcome is well linked again. -/
def lift {β : Type} (x : Except Fault (β × Queue Nat))
    (linked : ∀ b q', x = .ok (b, q') → ∃ cells, q'.Ok cells) : Except Fault (β × ThreadQueue) :=
  match x, linked with
  | .ok (b, q'), linked => .ok (b, ⟨q', linked b q' rfl⟩)
  | .error e, _ => .error e

theorem lift_ok {β : Type} {x : Except Fault (β × Queue Nat)}
    {linked : ∀ b q', x = .ok (b, q') → ∃ cells, q'.Ok cells} {b : β} {q' : Queue Nat}
    (returned : x = .ok (b, q')) : ∃ linked', lift x linked = .ok (b, ⟨q', linked'⟩) := by
  subst returned
  exact ⟨linked b q' rfl, rfl⟩

def new : ThreadQueue := ⟨queueNew, [], .new⟩

def push (q : ThreadQueue) (t : Nat) : Except Fault (Int × ThreadQueue) :=
  lift (queuePush q.queue t) fun _ _ returned => by
    obtain ⟨cells, ok⟩ := q.linked
    obtain ⟨q', pushed, ok'⟩ := ok.push t
    rw [pushed] at returned
    cases returned
    exact ⟨_, ok'⟩

def pop (q : ThreadQueue) : Except Fault (Int × ThreadQueue) :=
  lift (queuePop q.queue) fun _ _ returned => by
    obtain ⟨cells, ok⟩ := q.linked
    cases cells with
    | nil =>
        rw [ok.pop_nil] at returned
        cases returned
    | cons c ys =>
        obtain ⟨q', popped, ok'⟩ := ok.pop
        rw [popped] at returned
        cases returned
        exact ⟨_, ok'⟩

def top (q : ThreadQueue) : Except Fault Nat := queueTop q.queue

def movetop (q : ThreadQueue) (pos : Int) : Except Fault (Int × ThreadQueue) :=
  lift (queueMovetop q.queue pos) fun _ _ returned => by
    obtain ⟨cells, ok⟩ := q.linked
    obtain ⟨r, q', cells', moved, ok', _⟩ := ok.movetop pos
    rw [moved] at returned
    cases returned
    exact ⟨_, ok'⟩

def exitFound (q : ThreadQueue) (test : Nat → Bool) : Except Fault (Option Nat × ThreadQueue) :=
  lift (Threads.exitFound q.queue test) fun _ _ returned => by
    obtain ⟨cells, ok⟩ := q.linked
    cases first_passing cells fun d => test d.2 with
    | inl none =>
        rw [ok.exitFound_none none] at returned
        cases returned
        exact ⟨_, ok⟩
    | inr some =>
        obtain ⟨xs, c, ys, rfl, fails, passes⟩ := some
        obtain ⟨q', found, ok'⟩ := ok.exitFound_some fails passes
        rw [found] at returned
        cases returned
        exact ⟨_, ok'⟩

def exitLast (q : ThreadQueue) : Except Fault (Nat × ThreadQueue) :=
  lift (Threads.exitLast q.queue) fun _ _ returned => by
    obtain ⟨cells, ok⟩ := q.linked
    by_cases short : cells.length ≤ 1
    · rw [ok.exitLast_short short] at returned
      cases returned
    · obtain ⟨xs, b, c, rfl⟩ := last_two (Nat.lt_of_not_le short)
      obtain ⟨q', removed, ok'⟩ := ok.exitLast_last
      rw [removed] at returned
      cases returned
      exact ⟨_, ok'⟩

section Threads

variable {q : ThreadQueue} {t : Nat} {rest ts us : List Nat} {test : Nat → Bool}

@[simp] theorem threads_new : new.threads = [] := rfl

theorem size_eq (q : ThreadQueue) : q.queue.size = q.threads.length := by
  obtain ⟨cells, ok, same⟩ := q.exists_cells
  rw [ok.size, same, List.length_map]

theorem size_eq_one : q.queue.size = 1 ↔ ∃ t, q.threads = [t] := by
  rw [size_eq, ← List.length_eq_one_iff]
  omega

theorem more_of_size (first : q.threads = t :: rest) (several : q.queue.size ≠ 1) :
    ∃ u later, q.threads = t :: u :: later := by
  cases rest with
  | nil => exact absurd (size_eq_one.mpr ⟨t, first⟩) several
  | cons u later => exact ⟨u, later, first⟩

theorem push_ok (q : ThreadQueue) (t : Nat) :
    ∃ r q', q.push t = .ok (r, q') ∧ q'.threads = q.threads ++ [t] := by
  obtain ⟨cells, ok, same⟩ := q.exists_cells
  obtain ⟨q', pushed, ok'⟩ := ok.push t
  obtain ⟨linked, lifted⟩ := lift_ok pushed
  refine ⟨1, ⟨q', linked⟩, lifted, ?_⟩
  rw [threads_of_ok ok', same, List.map_append]
  rfl

theorem cells_of_cons (split : q.threads = t :: rest) :
    ∃ c ys, q.queue.Ok (c :: ys) ∧ c.2 = t ∧ ys.map Prod.snd = rest := by
  obtain ⟨cells, ok, same⟩ := q.exists_cells
  rw [same] at split
  obtain ⟨c, ys, rfl, head, tail⟩ := List.map_eq_cons_iff.mp split
  exact ⟨c, ys, ok, head, tail⟩

theorem pop_ok (split : q.threads = t :: rest) :
    ∃ r q', q.pop = .ok (r, q') ∧ q'.threads = rest := by
  obtain ⟨c, ys, ok, _, same⟩ := cells_of_cons split
  obtain ⟨q', popped, ok'⟩ := ok.pop
  obtain ⟨linked, lifted⟩ := lift_ok popped
  exact ⟨1, ⟨q', linked⟩, lifted, (threads_of_ok ok').trans same⟩

theorem top_ok (split : q.threads = t :: rest) : q.top = .ok t := by
  obtain ⟨c, ys, ok, rfl, _⟩ := cells_of_cons split
  exact ok.top

theorem second_ok {u : Nat} (split : q.threads = t :: u :: rest) : queueSecond q.queue = .ok u := by
  obtain ⟨b, ys, ok, _, tail⟩ := cells_of_cons split
  obtain ⟨c, zs, rfl, rfl, _⟩ := List.map_eq_cons_iff.mp tail
  exact ok.second

theorem ended_ok (split : q.threads = t :: rest) : queueEnded q.queue = .ok true := by
  obtain ⟨c, ys, ok, _⟩ := cells_of_cons split
  exact ok.ended

theorem movetop_ok (q : ThreadQueue) (pos : Int) :
    ∃ r q', q.movetop pos = .ok (r, q') ∧ q'.threads = movedTop q.threads pos := by
  obtain ⟨cells, ok, same⟩ := q.exists_cells
  obtain ⟨r, q', cells', moved, ok', values⟩ := ok.movetop pos
  obtain ⟨linked, lifted⟩ := lift_ok moved
  refine ⟨r, ⟨q', linked⟩, lifted, ?_⟩
  rw [threads_of_ok ok', values, same]

theorem cells_of_append (split : q.threads = ts ++ us) :
    ∃ xs ys, q.queue.Ok (xs ++ ys) ∧ xs.map Prod.snd = ts ∧ ys.map Prod.snd = us := by
  obtain ⟨cells, ok, same⟩ := q.exists_cells
  rw [same] at split
  obtain ⟨xs, ys, rfl, front, back⟩ := List.map_eq_append_iff.mp split
  exact ⟨xs, ys, ok, front, back⟩

theorem cells_fail {xs : List (Nat × Nat)} (same : xs.map Prod.snd = ts)
    (fails : ∀ u ∈ ts, test u = false) : ∀ d ∈ xs, test d.2 = false :=
  fun _ member => fails _ (same ▸ List.mem_map_of_mem member)

theorem search_none (fails : ∀ u ∈ q.threads, test u = false) :
    queueSearch q.queue test = .ok none := by
  obtain ⟨cells, ok, same⟩ := q.exists_cells
  exact ok.search_none (cells_fail same.symm fails)

theorem search_some (split : q.threads = ts ++ t :: us) (fails : ∀ u ∈ ts, test u = false)
    (passes : test t = true) :
    ∃ found, queueSearch q.queue test = .ok (some found) ∧ found.position = ts.length ∧
      found.val = t := by
  obtain ⟨xs, zs, ok, front, back⟩ := cells_of_append split
  obtain ⟨c, ys, rfl, rfl, _⟩ := List.map_eq_cons_iff.mp back
  refine ⟨_, ok.search_some (cells_fail front fails) passes, ?_, rfl⟩
  rw [← front, List.length_map]

theorem exitFound_none (fails : ∀ u ∈ q.threads, test u = false) :
    ∃ q', q.exitFound test = .ok (none, q') := by
  obtain ⟨cells, ok, same⟩ := q.exists_cells
  obtain ⟨linked, lifted⟩ := lift_ok (ok.exitFound_none (cells_fail same.symm fails))
  exact ⟨_, lifted⟩

theorem exitFound_some (split : q.threads = ts ++ t :: us) (fails : ∀ u ∈ ts, test u = false)
    (passes : test t = true) :
    ∃ q', q.exitFound test = .ok (some t, q') ∧ q'.threads = ts ++ us := by
  obtain ⟨xs, zs, ok, front, back⟩ := cells_of_append split
  obtain ⟨c, ys, rfl, rfl, tail⟩ := List.map_eq_cons_iff.mp back
  obtain ⟨q', removed, ok'⟩ := ok.exitFound_some (cells_fail front fails) passes
  obtain ⟨linked, lifted⟩ := lift_ok removed
  refine ⟨_, lifted, ?_⟩
  rw [threads_of_ok ok', List.map_append, front, tail]

theorem exitLast_ok {u : Nat} (split : q.threads = ts ++ [u, t]) :
    ∃ q', q.exitLast = .ok (t, q') ∧ q'.threads = ts ++ [u] := by
  obtain ⟨xs, zs, ok, front, back⟩ := cells_of_append split
  obtain ⟨b, ys, rfl, rfl, tail⟩ := List.map_eq_cons_iff.mp back
  obtain ⟨c, ys, rfl, rfl, none⟩ := List.map_eq_cons_iff.mp tail
  obtain rfl := List.map_eq_nil_iff.mp none
  obtain ⟨q', removed, ok'⟩ := ok.exitLast_last
  obtain ⟨linked, lifted⟩ := lift_ok removed
  refine ⟨_, lifted, ?_⟩
  rw [threads_of_ok ok', List.map_append, front]
  rfl

end Threads

end ThreadQueue

end Ece344Lab.Threads
