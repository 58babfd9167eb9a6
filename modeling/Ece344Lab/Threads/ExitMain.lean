import Ece344Lab.Threads.Conservation

set_option autoImplicit false

/- The last exit of the main thread: the loop of `thread_exit(THREAD_SELF)` that releases the
threads of the exit queue. -/
namespace Ece344Lab.Threads

open Outcome State

variable {s s' s₁ : State} {ie : Bool} {k : List Frame} {t : Nat} {rest : List Nat}

/-- How often the memory of a thread is released along the states. -/
def releases (t : Nat) : List State → Nat
  | a :: b :: states =>
      (if a.allocated t = true ∧ b.allocated t = false then 1 else 0) + releases t (b :: states)
  | _ => 0

/-- `b` comes behind `a` when the call goes on. -/
abbrev GoesOn (a b : State) : Prop := Step a .goOn b

/-- What the last exit of the main thread is for: the call goes on until it returns `THREAD_NONE`,
and on its way each thread of the exit queue is released once. -/
def CleansUp (s : State) : Prop :=
  ∃ s₁ states s', Step s (.invoke (.threadExit threadSelf)) s₁ ∧
    List.IsChain GoesOn (s₁ :: states) ∧ (s₁ :: states).getLast? = some s' ∧ s'.frames = [] ∧
    s'.log.head? = some (.ret s.running (.threadExit threadSelf) (some threadNone) s.enabled) ∧
    s'.exitQueue.threads = [] ∧ ∀ t ∈ s.exitQueue.threads, releases t (s :: s₁ :: states) = 1

theorem ThreadQueue.top_nil {q : ThreadQueue} (empty : q.threads = []) :
    q.top = .error .undefined := by
  obtain ⟨cells, ok, same⟩ := q.exists_cells
  rw [empty, eq_comm, List.map_eq_nil_iff] at same
  subst same
  have start : q.queue.startLinker = none := ok.chain.start
  change queueTop q.queue = _
  unfold queueTop
  rw [start]
  rfl

theorem freeStack_cases (p : Option Nat) :
    freeStack p = .ok () ∨ freeStack p = .error .undefined := by
  match p with
  | none | some 0 => exact Or.inl rfl
  | some (_ + 1) => exact Or.inr rfl

/-- The loop looks at the ready queue, which it does not change. -/
theorem State.ready_size (nonempty : s.ready ≠ []) : s.readyQueue.queue.size ≠ 0 := by
  have length := List.length_pos_iff.mpr nonempty
  have size := ThreadQueue.size_eq s.readyQueue
  change 0 < s.readyQueue.threads.length at length
  omega

/-- A round of the loop releases the thread at the head of the exit queue, and another round
follows. -/
structure Round (s : State) (t : Nat) (rest : List Nat) (s' : State) : Prop where
  exits : s'.exitQueue.threads = rest
  ready : s'.ready = s.ready
  frames : s'.frames = s.frames
  threads : s'.threads = s.threads
  allocated : s'.allocated = Function.update s.allocated t false

/-- Rounds of the loop, with the threads that they release. -/
inductive Rounds : State → List Nat → State → Prop
  | done {s : State} : Rounds s [] s
  | next {s m s' : State} {t : Nat} {rest released : List Nat} (step : GoesOn s m)
      (round : Round s t rest m) (later : Rounds m released s') : Rounds s (t :: released) s'

/-- The loop has released the threads at the head of the exit queue whose stacks can be freed, and
stops at the first one behind them, or at the end of the queue. -/
structure Stops (s : State) (ie : Bool) (k : List Frame) (released left : List Nat) (s' : State) :
    Prop where
  rounds : Rounds s released s'
  exits : s'.exitQueue.threads = left
  frames : s'.frames = .exitMain ie :: k
  freed : ∀ t ∈ released, freeStack (s.pStack t) = .ok ()
  stack : ∀ t ∈ left.head?, freeStack (s.pStack t) = .error .undefined
  faults : resume (.exitMain ie) k s' = .error .undefined

section Loop

variable (frames : s.frames = .exitMain ie :: k) (nonempty : s.ready ≠ [])

include frames

theorem goesOn_exitMain : GoesOn s s' ↔ exitMainLoop ie k s = .ok s' := by
  constructor
  · intro step
    cases step with
    | goOn suspended runs =>
        rw [frames] at suspended
        cases suspended
        exact runs
  · exact fun runs => .goOn frames runs

theorem not_goesOn (faults : exitMainLoop ie k s = .error .undefined) : ¬ GoesOn s s' := by
  intro step
  cases faults.symm.trans ((goesOn_exitMain frames).mp step)

include nonempty

theorem exists_round (exits : s.exitQueue.threads = t :: rest)
    (freed : freeStack (s.pStack t) = .ok ()) : ∃ s', GoesOn s s' ∧ Round s t rest s' := by
  obtain ⟨_, q, popped, tail⟩ := ThreadQueue.pop_ok exits
  have runs : exitMainLoop ie k s = .ok { s.free t with
      exitQueue := q, frames := .exitMain ie :: k } := by
    unfold exitMainLoop
    rw [if_pos (ready_size nonempty), ThreadQueue.top_ok exits, ok_bind]
    change (freeStack (s.pStack t) >>= _) = _
    rw [freed, ok_bind]
    change (s.exitQueue.pop >>= _) = _
    rw [popped, ok_bind]
  exact ⟨_, (goesOn_exitMain frames).mpr runs, tail, rfl, frames.symm, rfl, rfl⟩

omit frames in
theorem exitMainLoop_stack (exits : s.exitQueue.threads = t :: rest)
    (stack : freeStack (s.pStack t) = .error .undefined) :
    exitMainLoop ie k s = .error .undefined := by
  unfold exitMainLoop
  rw [if_pos (ready_size nonempty), ThreadQueue.top_ok exits, ok_bind]
  change (freeStack (s.pStack t) >>= _) = _
  rw [stack]
  rfl

omit frames in
/-- When the exit queue is empty its head is taken all the same, and that is `NULL`. -/
theorem exitMainLoop_empty (exits : s.exitQueue.threads = []) :
    exitMainLoop ie k s = .error .undefined := by
  unfold exitMainLoop
  rw [if_pos (ready_size nonempty), ThreadQueue.top_nil exits]
  rfl

/-- The loop is never left. -/
theorem GoesOn.inside (step : GoesOn s s') : s'.frames = .exitMain ie :: k ∧ s'.ready ≠ [] := by
  cases exits : s.exitQueue.threads with
  | nil => exact absurd step (not_goesOn frames (exitMainLoop_empty nonempty exits))
  | cons t rest =>
      cases freeStack_cases (s.pStack t) with
      | inr stack => exact absurd step (not_goesOn frames (exitMainLoop_stack nonempty exits stack))
      | inl freed =>
          obtain ⟨s₂, step', round⟩ := exists_round frames nonempty exits freed
          have runs := (goesOn_exitMain frames).mp step
          rw [(goesOn_exitMain frames).mp step'] at runs
          obtain rfl := Except.ok.inj runs
          exact ⟨round.frames.trans frames, round.ready.symm ▸ nonempty⟩

theorem not_left {states : List State} (run : List.IsChain GoesOn (s :: states))
    (ends : (s :: states).getLast? = some s') : s'.frames ≠ [] := by
  induction states generalizing s with
  | nil =>
      obtain rfl : s = s' := Option.some.inj ends
      rw [frames]
      nofun
  | cons m states ih =>
      obtain ⟨step, later⟩ := List.isChain_cons_cons.mp run
      obtain ⟨frames', nonempty'⟩ := GoesOn.inside frames nonempty step
      exact ih frames' nonempty' later ends

theorem exists_rounds {exited : List Nat} (exits : s.exitQueue.threads = exited) :
    ∃ released left s', exited = released ++ left ∧ Stops s ie k released left s' := by
  induction exited generalizing s with
  | nil => exact ⟨[], [], s, rfl, .done, exits, frames, nofun, nofun,
      exitMainLoop_empty nonempty exits⟩
  | cons t rest ih =>
      cases freeStack_cases (s.pStack t) with
      | inr stack =>
          refine ⟨[], t :: rest, s, rfl, .done, exits, frames, nofun, ?_,
            exitMainLoop_stack nonempty exits stack⟩
          rintro u ⟨⟩
          exact stack
      | inl freed =>
          obtain ⟨m, step, round⟩ := exists_round frames nonempty exits freed
          obtain ⟨frames', nonempty'⟩ := GoesOn.inside frames nonempty step
          obtain ⟨released, left, s', split, stops⟩ := ih frames' nonempty' round.exits
          have same : m.pStack = s.pStack := by
            funext u
            exact congrArg (fun threads => Thread.pStack (threads u)) round.threads
          refine ⟨t :: released, left, s', congrArg (t :: ·) split, .next step round stops.rounds,
            stops.exits, stops.frames, fun u member => ?_, same ▸ stops.stack, stops.faults⟩
          cases List.mem_cons.mp member with
          | inl first => exact first ▸ freed
          | inr later => exact same ▸ stops.freed u later

end Loop

section Call

variable (lists : s.ready = [s.running]) (main : s.id s.running = 0)

include lists main

/-- The call of the main thread comes to the loop with the timer signal blocked. -/
theorem threadExit_main (k : List Frame) : threadExit threadSelf k s =
    .ok { (s.called (.threadExit threadSelf)).interruptsSet false with
      frames := .exitMain s.enabled :: k } := by
  have alone : s.readyQueue.queue.size = 1 := ThreadQueue.size_eq_one.mpr ⟨_, lists⟩
  unfold threadExit
  dsimp only
  rw [if_neg (by decide), if_neg (by decide), if_pos rfl]
  change (s.readyQueue.top >>= _) = _
  rw [ThreadQueue.top_ok lists, ok_bind]
  exact if_pos ⟨alone, main⟩

theorem not_cleansUp : ¬ CleansUp s := by
  rintro ⟨s₁, states, s', call, run, ends, user, _⟩
  have nonempty : s.ready ≠ [] := lists ▸ List.cons_ne_nil _ _
  have inside : s₁.frames = [.exitMain s.enabled] ∧ s₁.ready ≠ [] := by
    cases call with
    | invoke _ _ enters =>
        obtain rfl := Except.ok.inj ((threadExit_main lists main []).symm.trans enters)
        exact ⟨rfl, nonempty⟩
  exact not_left inside.1 inside.2 run ends user

/-- The last exit of the main thread never comes to its end. It releases the threads of the exit
queue one after the other up to the first one that has a stack from `thread_create`, which it cannot
free; without such a thread it takes the head of the empty queue. -/
theorem thread_exit_main_never (user : s.frames = []) :
    ¬ CleansUp s ∧ ∃ s₁ s' released left, Step s (.invoke (.threadExit threadSelf)) s₁ ∧
      s₁.allocated = s.allocated ∧ s₁.threads = s.threads ∧
      s.exitQueue.threads = released ++ left ∧ Stops s₁ s.enabled [] released left s' := by
  refine ⟨not_cleansUp lists main, ?_⟩
  have nonempty : s.ready ≠ [] := lists ▸ List.cons_ne_nil _ _
  have start : ({ (s.called (.threadExit threadSelf)).interruptsSet false with
      frames := [.exitMain s.enabled] } : State).frames = .exitMain s.enabled :: [] := rfl
  obtain ⟨released, left, s', split, stops⟩ := exists_rounds start nonempty rfl
  have call : enter (.threadExit threadSelf) [] s = _ := threadExit_main lists main []
  exact ⟨_, s', released, left, .invoke user nofun call, rfl, rfl, split, stops⟩

end Call

/-- The main thread alone, before any other has been created. -/
theorem thread_exit_main_faults : ∃ s, Reachable Permitted s ∧ s.frames = [] ∧ s.ready = [0] ∧
    s.running = 0 ∧ s.id 0 = 0 ∧ s.exitQueue.threads = [] ∧ ¬ CleansUp s := by
  obtain ⟨s, run, user, ready, running, id, exits⟩ : ∃ s, Reachable Permitted s ∧ s.frames = [] ∧
      s.ready = [0] ∧ s.running = 0 ∧ s.id 0 = 0 ∧ s.exitQueue.threads = [] :=
    exists_reachable Permitted 0 true [] (by decide +kernel)
  exact ⟨s, run, user, ready, running, id, exits, not_cleansUp (running ▸ ready) (running ▸ id)⟩

/-- Two threads have exited before the main thread does. -/
theorem thread_exit_main_never_two : ∃ s, (Reachable Permitted s ∧ s.ready = [s.running] ∧
    s.id s.running = 0 ∧ s.frames = [] ∧ s.exitQueue.threads = [1, 2] ∧
    s.pStack 1 = some newStack) ∧
    ¬ CleansUp s ∧ ∃ s₁ s' released left, Step s (.invoke (.threadExit threadSelf)) s₁ ∧
      s₁.allocated = s.allocated ∧ s₁.threads = s.threads ∧
      s.exitQueue.threads = released ++ left ∧ Stops s₁ s.enabled [] released left s' := by
  obtain ⟨s, run, ready, id, user, exits⟩ : ∃ s, Reachable Permitted s ∧ s.ready = [s.running] ∧
      s.id s.running = 0 ∧ s.frames = [] ∧ s.exitQueue.threads = [1, 2] ∧
      s.pStack 1 = some newStack :=
    exists_reachable Permitted 0 true [.invoke (.threadCreate 1), .invoke (.threadCreate 2),
      .invoke (.threadYield threadAny), .goOn, .invoke (.threadExit threadSelf), .goOn,
      .invoke (.threadExit threadSelf), .goOn] (by decide +kernel)
  exact ⟨s, ⟨run, ready, id, user, exits⟩, thread_exit_main_never ready id user⟩

end Ece344Lab.Threads
