import Ece344Lab.Threads.Conservation

set_option autoImplicit false

/- `thread_exit` with the identifier of its caller and `thread_exit(THREAD_SELF)`. -/
namespace Ece344Lab.Threads

open Outcome State

variable {s s' byId bySelf : State} {k : List Frame} {t u : Nat} {rest : List Nat}

/-- Two outcomes of an exit of the running thread are the same for the other threads, and one of
them runs. -/
structure ExitsAlike (s byId bySelf : State) : Prop where
  ready : byId.ready = bySelf.ready
  exits : byId.exitQueue.threads = bySelf.exitQueue.threads
  index : byId.readyQueueIndex = bySelf.readyQueueIndex
  next : byId.running = bySelf.running
  stops : byId.running ≠ s.running
  head : byId.ready.head? = some byId.running

theorem threadExit_goes_on (s : State) (t : Nat) (k : List Frame) :
    Sat (threadExit t k s) (fun s' => s'.running = s.running ∧ s'.frames = k) fun _ => True := by
  unfold threadExit
  dsimp only
  rw [if_pos (Int.natCast_nonneg t)]
  refine (sat_true _).bind fun current _ => (sat_true _).bind fun found _ => ?_
  match found with
  | (none, _) => exact ⟨rfl, rfl⟩
  | (some _, _) =>
      exact Sat.ite (fun _ => (sat_true _).bind fun _ _ => ⟨rfl, rfl⟩) fun _ =>
        (sat_true _).bind fun _ _ => ⟨rfl, rfl⟩

theorem threadExit_own (lists : s.ready = s.running :: u :: rest) (named : 0 ≤ s.id s.running)
    (k : List Frame) :
    Returns (threadExit (s.id s.running) k s) fun s' =>
      s'.ready = u :: rest ∧ s'.exitQueue.threads = s.exitQueue.threads ++ [s.running] ∧
        s'.readyQueueIndex = Function.update s.readyQueueIndex (s.id s.running).toNat none ∧
        s'.running = s.running ∧ s'.frames = k := by
  have split : s.readyQueue.threads = [] ++ s.running :: u :: rest := lists
  obtain ⟨q, removed, left⟩ : ∃ q, s.readyQueue.exitFound (fun v => decide (s.id v =
      s.id s.running)) = .ok (some s.running, q) ∧ q.threads = [] ++ u :: rest :=
    ThreadQueue.exitFound_some split nofun (decide_eq_true rfl)
  obtain ⟨r, x, pushed, exits⟩ := s.exitQueue.push_ok s.running
  unfold threadExit
  dsimp only
  rw [if_pos named, show ((s.called (.threadExit (s.id s.running))).interruptsSet
    false).readyQueue.top = .ok s.running from ThreadQueue.top_ok lists, ok_bind]
  change Returns (s.readyQueue.exitFound (fun v => decide (s.id v = s.id s.running)) >>= _) _
  rw [removed, ok_bind]
  change Returns (if s.id s.running = s.id s.running then _ else _) _
  rw [if_pos rfl]
  change Returns (s.exitQueue.push s.running >>= _) _
  rw [pushed, ok_bind]
  exact ⟨_, rfl, left, exits, rfl, rfl, rfl⟩

theorem threadExit_self (lists : s.ready = s.running :: u :: rest) (k : List Frame) :
    Returns (threadExit threadSelf k s) fun s' =>
      s'.ready = u :: rest ∧ s'.exitQueue.threads = s.exitQueue.threads ++ [s.running] ∧
        s'.readyQueueIndex = Function.update s.readyQueueIndex (s.id s.running).toNat none ∧
        s'.running = u := by
  obtain ⟨r, x, pushed, exits⟩ := s.exitQueue.push_ok s.running
  obtain ⟨r', q, popped, left⟩ := ThreadQueue.pop_ok (q := s.readyQueue) lists
  have several : ¬ ((s.called (.threadExit threadSelf)).interruptsSet false).readyQueue.queue.size =
      1 := by
    have length := congrArg List.length lists
    rw [ThreadQueue.size_eq]
    change ((s.ready.length : Nat) : Int) ≠ 1
    rw [length, List.length_cons, List.length_cons]
    omega
  unfold threadExit
  dsimp only
  rw [if_neg (by decide), if_neg (by decide), if_pos rfl, show ((s.called (.threadExit
    threadSelf)).interruptsSet false).readyQueue.top = .ok s.running from ThreadQueue.top_ok lists,
    ok_bind]
  rw [if_neg fun last => several last.1, if_neg several]
  change Returns (s.exitQueue.push s.running >>= _) _
  rw [pushed, ok_bind]
  change Returns (s.readyQueue.pop >>= _) _
  rw [popped, ok_bind]
  dsimp only
  rw [ThreadQueue.top_ok left, ok_bind]
  exact ⟨_, rfl, left, exits, rfl, rfl⟩

/-- The two are not alike in any state, since the caller goes on. -/
theorem not_exitsAlike (named : threadExit t k s = .ok byId) : ¬ ExitsAlike s byId bySelf :=
  fun alike => alike.stops ((threadExit_goes_on s t k).of_ok named).1

/-- In every state of a run an exit by the own identifier and `thread_exit(THREAD_SELF)` agree about
the queues and the table. But the one goes on with its caller, which is not the head of the ready
queue any more. -/
theorem thread_exit_own_never (run : Reachable Permitted s) (user : s.frames = [])
    (several : 1 < s.ready.length) :
    ∃ byId bySelf, Step s (.invoke (.threadExit (s.id s.running))) byId ∧
      Step s (.invoke (.threadExit threadSelf)) bySelf ∧ ¬ ExitsAlike s byId bySelf ∧
      byId.ready = bySelf.ready ∧ byId.exitQueue.threads = bySelf.exitQueue.threads ∧
      byId.readyQueueIndex = bySelf.readyQueueIndex ∧ byId.running = s.running ∧
      byId.frames = [] ∧ byId.ready.head? ≠ some byId.running ∧
      bySelf.ready.head? = some bySelf.running := by
  have ok := run.ok
  have live := (ok.queues.live s.running).mpr ⟨none, Queues.mem_ready_of_head ok.head⟩
  have named := (ok.queues.index s.running live).1
  have distinct := ok.queues.apart.nodup none
  obtain ⟨rest, first⟩ := ok.exists_ready
  change s.ready.Nodup at distinct
  match rest, first with
  | [], first => simp [first] at several
  | u :: rest, first =>
      obtain ⟨byId, exits, ready, queue, index, running, frames⟩ := threadExit_own first named []
      obtain ⟨bySelf, exits', ready', queue', index', running'⟩ := threadExit_self first []
      have other : u ≠ s.running := by
        rintro rfl
        simp [first] at distinct
      obtain ⟨n, name⟩ := Int.eq_ofNat_of_zero_le named
      refine ⟨byId, bySelf, .invoke user nofun exits, .invoke user nofun exits',
        not_exitsAlike (name ▸ exits), ready.trans ready'.symm, queue.trans queue'.symm,
        index.trans index'.symm, running, frames, ?_, ?_⟩
      · rw [ready, running]
        exact fun same => other (Option.some.inj same)
      · rw [ready', running']
        rfl

/-- Thread 0 exits by its identifier while thread 1 is ready: it goes on, and thread 1 is the head
of the ready queue. -/
theorem thread_exit_own_differs :
    ∃ s byId bySelf, Reachable Permitted s ∧ s.ready = [0, 1] ∧ s.id s.running = 0 ∧
      Step s (.invoke (.threadExit 0)) byId ∧ Step s (.invoke (.threadExit threadSelf)) bySelf ∧
      byId.running = 0 ∧ byId.ready = [1] ∧ bySelf.running = 1 ∧ ¬ ExitsAlike s byId bySelf := by
  obtain ⟨s, run, user, ready, id, ⟨byId, exits, same, left⟩, bySelf, exits', same'⟩ :
      ∃ s, Reachable Permitted s ∧ s.frames = [] ∧ s.ready = [0, 1] ∧ s.id s.running = 0 ∧
        Returns (enter (.threadExit 0) [] s) (fun byId => byId.running = 0 ∧ byId.ready = [1]) ∧
        Returns (enter (.threadExit threadSelf) [] s) fun bySelf => bySelf.running = 1 :=
    exists_reachable Permitted 0 true [.invoke (.threadCreate 1)] (by decide +kernel)
  refine ⟨s, byId, bySelf, run, ready, id, .invoke user nofun exits, .invoke user nofun exits',
    same, left, same', fun alike => ?_⟩
  have next := alike.next
  rw [same, same'] at next
  cases next

/-- A run with two ready threads. -/
theorem thread_exit_own_never_two : ∃ s, (Reachable Permitted s ∧ s.frames = [] ∧
    1 < s.ready.length) ∧ ∃ byId bySelf, Step s (.invoke (.threadExit (s.id s.running))) byId ∧
      Step s (.invoke (.threadExit threadSelf)) bySelf ∧ ¬ ExitsAlike s byId bySelf ∧
      byId.ready = bySelf.ready ∧ byId.exitQueue.threads = bySelf.exitQueue.threads ∧
      byId.readyQueueIndex = bySelf.readyQueueIndex ∧ byId.running = s.running ∧
      byId.frames = [] ∧ byId.ready.head? ≠ some byId.running ∧
      bySelf.ready.head? = some bySelf.running := by
  obtain ⟨s, run, user, several⟩ : ∃ s, Reachable Permitted s ∧ s.frames = [] ∧
      1 < s.ready.length :=
    exists_reachable Permitted 0 true [.invoke (.threadCreate 1)] (by decide +kernel)
  exact ⟨s, ⟨run, user, several⟩, thread_exit_own_never run user several⟩

end Ece344Lab.Threads
