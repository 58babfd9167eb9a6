import Ece344Lab.Threads.Advance

set_option autoImplicit false

/- No thread is lost, duplicated or misread, as long as `thread_exit` does not free the stack of
another thread. -/
namespace Ece344Lab.Threads

open Outcome Placement State

variable {s s' : State} {t u : Nat}

section Replay

variable (permitted : State → Action → Prop) [∀ s a, Decidable (permitted s a)]

/-- One step, as a function. -/
def act (s : State) : Action → Except Fault State
  | .invoke (.threadCreate t) =>
      if s.frames = [] ∧ s.allocated t = false then threadCreate t [] s else .error .undefined
  | .invoke c => if s.frames = [] then enter c [] s else .error .undefined
  | .interruptsSet enabled =>
      if s.frames = [] then .ok (s.interruptsSet enabled) else .error .undefined
  | .timer =>
      if s.enabled = true then
        threadYield threadAny (.handler s.enabled :: s.frames) (s.interruptsSet false)
      else .error .undefined
  | .goOn =>
      match s.frames with
      | [] => .error .undefined
      | f :: k => resume f k s

def replay : List Action → State → Except Fault State
  | [], s => .ok s
  | a :: rest, s =>
      if permitted s a then do
        let s ← act s a
        replay rest s
      else .error .undefined

theorem act_step {a : Action} (acts : act s a = .ok s') : Step s a s' := by
  have of_ite : ∀ {p : Prop} [Decidable p] {x : Except Fault State},
      (if p then x else .error .undefined) = .ok s' → p ∧ x = .ok s' := by
    intro p _ x returned
    by_cases holds : p
    · rw [if_pos holds] at returned
      exact ⟨holds, returned⟩
    · rw [if_neg holds] at returned
      cases returned
  cases a with
  | invoke c =>
      cases c
      case threadCreate t =>
        obtain ⟨⟨user, fresh⟩, runs⟩ := of_ite acts
        refine .invoke user (fun u same => ?_) runs
        cases same
        exact fresh
      all_goals
        obtain ⟨user, runs⟩ := of_ite acts
        exact .invoke user nofun runs
  | interruptsSet enabled =>
      obtain ⟨user, runs⟩ := of_ite acts
      obtain rfl := Except.ok.inj runs
      exact .interruptsSet user enabled
  | timer =>
      obtain ⟨on, runs⟩ := of_ite acts
      exact .timer on runs
  | goOn =>
      unfold act at acts
      cases frames : s.frames with
      | nil =>
          rw [frames] at acts
          cases acts
      | cons f k =>
          rw [frames] at acts
          exact .goOn frames acts

theorem replay_reachable {actions : List Action} (run : Reachable permitted s)
    (replays : replay permitted actions s = .ok s') : Reachable permitted s' := by
  induction actions generalizing s with
  | nil =>
      obtain rfl := Except.ok.inj replays
      exact run
  | cons a rest ih =>
      unfold replay at replays
      by_cases may : permitted s a
      · rw [if_pos may] at replays
        cases acts : act s a with
        | error e =>
            rw [acts] at replays
            cases replays
        | ok s₁ =>
            rw [acts, ok_bind] at replays
            exact ih (.step run may (act_step acts)) replays
      · rw [if_neg may] at replays
        cases replays

/-- A list of actions leads to a state of a run. -/
theorem exists_reachable (newthread : Nat) (enabled : Bool) (actions : List Action)
    {p : State → Prop}
    (replays : Returns (threadInit newthread enabled >>= replay permitted actions) p) :
    ∃ s, Reachable permitted s ∧ p s := by
  obtain ⟨s, returned, holds⟩ := replays
  cases start : threadInit newthread enabled with
  | error e =>
      rw [start] at returned
      cases returned
  | ok s₀ =>
      rw [start, ok_bind] at returned
      exact ⟨s, replay_reachable permitted (.init start) returned, holds⟩

instance (s : State) : ∀ c : Call, Decidable (c.Permitted s)
  | .threadExit tid =>
      inferInstanceAs (Decidable (tid ≠ s.id s.running ∧ (tid = threadSelf → 1 < s.ready.length)))
  | .threadCreate _ | .threadYield _ | .threadSleep _ | .threadWakeup _ _ | .lockAcquire _
  | .lockRelease _ | .cvWait _ _ | .cvSignal _ _ | .cvBroadcast _ _ => isTrue trivial

instance (s : State) : ∀ a : Action, Decidable (Permitted s a)
  | .invoke c => inferInstanceAs (Decidable (c.Permitted s))
  | .interruptsSet _ | .timer | .goOn => isTrue trivial

end Replay

/-- The queues, the identifiers and the statuses of the threads, when no thread is on its way back
from `getcontext`. -/
structure State.Conserved (s : State) : Prop where
  /-- every live thread is in exactly one queue -/
  placed : ∀ t, Live t s.log → ∃! p, t ∈ s.queued p
  /-- and occurs there once; nothing else is in a queue -/
  once : ∀ p, ∀ t ∈ s.queued p, Live t s.log ∧ (s.queued p).count t = 1
  distinct : ∀ t u, Live t s.log → Live u s.log → s.id t = s.id u → t = u
  index : ∀ i, s.readyQueueIndex i ≠ none ↔ ∃ t, Live t s.log ∧ s.id t = i
  head : s.ready.head? = some s.running
  running : ¬ Switching s.frames → s.status s.running = .new ∨ s.status s.running = .run
  others : ∀ t ∈ s.ready.tail, s.status t = .new ∨ s.status t = .idle
  waiting : ∀ w, ∀ t ∈ s.waiting w, s.status t = .sleep
  switching : Switching s.frames → s.enabled = false

theorem State.Ok.distinct (ok : s.Ok) (here : Live t s.log) (there : Live u s.log)
    (same : s.id t = s.id u) : t = u := by
  have first := (ok.queues.index t here).2.2
  rw [same, (ok.queues.index u there).2.2] at first
  exact (Option.some.inj first).symm

/-- In every state of a run the threads are where they belong. -/
theorem State.Ok.conserved (ok : s.Ok) : s.Conserved := by
  have apart := ok.queues.apart
  refine ⟨fun t live => ?_, fun p t member => ⟨(ok.queues.live t).mpr ⟨p, member⟩, ?_⟩,
    fun t u here there same => ok.distinct here there same, fun i => ?_, ok.head, ok.active,
    fun t member => ?_, fun w t member => (ok.queues.waiting w t member).status,
    fun switching => ?_⟩
  · obtain ⟨p, member⟩ := (ok.queues.live t).mp live
    exact ⟨p, member, fun q there => apart.apart q p t there member⟩
  · exact List.count_eq_one_of_mem (apart.nodup p) member
  · constructor
    · intro used
      obtain ⟨t, found⟩ := Option.ne_none_iff_exists'.mp used
      exact ⟨t, ok.queues.indexed i t found⟩
    · rintro ⟨t, live, id⟩
      have found := (ok.queues.index t live).2.2
      rw [id, Int.toNat_natCast] at found
      rw [found]
      nofun
  · obtain ⟨rest, first⟩ := ok.exists_ready
    have nodup := apart.nodup none
    change s.ready.Nodup at nodup
    rw [first, List.nodup_cons] at nodup
    rw [first] at member
    have other : some s.running ≠ some t := fun same =>
      nodup.1 (Option.some.inj same ▸ member)
    have there : t ∈ s.ready := by
      rw [first]
      exact List.mem_cons_of_mem _ member
    cases ok.queues.ready t there other with
    | inl fresh => exact Or.inl fresh.status
    | inr suspended => exact Or.inr suspended.status
  · by_contra on
    have user := ok.outer (by simpa using on)
    rw [user] at switching
    exact not_switching_nil switching

section Stacks

/-- Stacks begin at `NULL` or where `thread_create` has put them. -/
theorem Reachable.stacked (run : Reachable Permitted s) (t : Nat) :
    s.pStack t = none ∨ s.pStack t = some newStack := by
  induction run with
  | init runs =>
      obtain ⟨_, q, pushed, _⟩ := ThreadQueue.new.push_ok _
      unfold threadInit at runs
      dsimp only at runs
      rw [pushed, ok_bind] at runs
      obtain rfl := Except.ok.inj runs
      exact Or.inl rfl
  | step before may step ih =>
      obtain ⟨_, advance⟩ := step.advance before.ok may
      cases advance.pStacks t with
      | inl same => exact same ▸ ih
      | inr new => exact Or.inr new

theorem State.Ok.exitFound (ok : s.Ok) (member : t ∈ s.ready) :
    ∃ q, s.readyQueue.exitFound (fun u => decide (s.id u = s.id t)) = .ok (some t, q) := by
  cases first_passing s.ready fun u => decide (s.id u = s.id t) with
  | inl absent => exact absurd (absent t member) (by simp)
  | inr found =>
      obtain ⟨ts, u, us, split, fails, passes⟩ := found
      have there : u ∈ s.ready := split ▸ List.mem_append_right _ List.mem_cons_self
      obtain rfl := ok.distinct ((ok.queues.live u).mpr ⟨none, there⟩)
        ((ok.queues.live t).mpr ⟨none, member⟩) (of_decide_eq_true passes)
      obtain ⟨q, removed, _⟩ := ThreadQueue.exitFound_some split fails passes
      exact ⟨q, removed⟩

/-- A pointer behind the start of a block is freed. -/
theorem threadExit_stack (ok : s.Ok) (member : t ∈ s.ready) (other : s.id t ≠ s.id s.running)
    (stack : s.pStack t = some newStack) (k : List Frame) :
    threadExit (s.id t) k s = .error .undefined := by
  have named := (ok.queues.index t ((ok.queues.live t).mpr ⟨none, member⟩)).1
  obtain ⟨q, found⟩ := ok.exitFound member
  obtain ⟨rest, first⟩ := ok.exists_ready
  unfold threadExit
  dsimp only
  rw [if_pos named]
  change (s.readyQueue.top >>= _) = _
  rw [ThreadQueue.top_ok first, ok_bind]
  change (s.readyQueue.exitFound (fun u => decide (s.id u = s.id t)) >>= _) = _
  rw [found, ok_bind]
  dsimp only
  change (if s.id t = s.id s.running then _ else _) = _
  rw [if_neg other]
  change (freeStack (s.pStack t) >>= _) = _
  rw [stack]
  rfl

end Stacks

/-- What the program can do next. -/
def Action.Due (s : State) : Action → Prop
  | .invoke c => s.frames = [] ∧ ∀ t, c = .threadCreate t → s.allocated t = false
  | .interruptsSet _ => s.frames = []
  | .timer => s.enabled = true
  | .goOn => s.frames ≠ []

def Action.Spares (s : State) : Action → Prop
  | .invoke c => c.Spares s
  | _ => True

/-- What is done next comes to an end, with the threads where they belong. -/
def Conserves (s : State) (a : Action) : Prop := ∃ s', Step s a s' ∧ s'.Conserved

/-- Runs in which `thread_exit` does not come upon the stack of another ready thread. -/
def Sparing (s : State) (a : Action) : Prop := Permitted s a ∧ a.Spares s

theorem Conserves.of_step {a : Action} (ok : s.Ok) (may : Permitted s a) (step : Step s a s') :
    Conserves s a :=
  ⟨s', step, (step.keeps ok may).conserved⟩

/-- Nothing else stands in the way of the next step. -/
theorem conserves_iff (run : Reachable Permitted s) {a : Action} (due : a.Due s)
    (may : Permitted s a) : Conserves s a ↔ a.Spares s := by
  have ok := run.ok
  obtain ⟨calls, strikes, goes⟩ := step_total ok
  cases a with
  | interruptsSet enabled =>
      exact iff_of_true (.of_step ok may (.interruptsSet due enabled)) trivial
  | timer =>
      obtain ⟨s', step⟩ := strikes due
      exact iff_of_true (.of_step ok may step) trivial
  | goOn =>
      obtain ⟨s', step⟩ := goes due
      exact iff_of_true (.of_step ok may step) trivial
  | invoke c =>
      constructor
      · rintro ⟨s', step, _⟩
        cases c with
        | threadExit tid =>
            intro t member other id
            refine (run.stacked t).resolve_right fun stack => ?_
            have different : s.id t ≠ s.id s.running := fun same =>
              other (ok.distinct ((ok.queues.live t).mpr ⟨none, member⟩)
                ((ok.queues.live s.running).mpr ⟨none, Queues.mem_ready_of_head ok.head⟩) same)
            cases step with
            | invoke user fresh runs =>
                subst id
                cases (threadExit_stack ok member different stack []).symm.trans runs
        | _ => trivial
      · intro spares
        obtain ⟨s', step⟩ := calls c due.1 may spares due.2
        exact .of_step ok may step

/-- In every state of a run that spares the stacks of the others the threads are where they belong.
What can be done next keeps them there, unless it comes upon a stack. -/
theorem scheduler_conservation (run : Reachable Sparing s) :
    s.Conserved ∧ ∀ a : Action, a.Due s → Permitted s a → (Conserves s a ↔ a.Spares s) := by
  have permitted : Reachable Permitted s := run.mono fun _ _ may => may.1
  exact ⟨permitted.ok.conserved, fun a due may => conserves_iff permitted due may⟩

instance (s : State) : ∀ c : Call, Decidable (c.Spares s)
  | .threadExit tid =>
      inferInstanceAs (Decidable (∀ t ∈ s.ready, t ≠ s.running → s.id t = tid → s.pStack t = none))
  | .threadCreate _ | .threadYield _ | .threadSleep _ | .threadWakeup _ _ | .lockAcquire _
  | .lockRelease _ | .cvWait _ _ | .cvSignal _ _ | .cvBroadcast _ _ => isTrue trivial

instance (s : State) : ∀ a : Action, Decidable (a.Spares s)
  | .invoke c => inferInstanceAs (Decidable (c.Spares s))
  | .interruptsSet _ | .timer | .goOn => isTrue trivial

instance (s : State) (a : Action) : Decidable (Sparing s a) :=
  inferInstanceAs (Decidable (Permitted s a ∧ a.Spares s))

/-- A run with a thread that runs, one that is ready and one that waits, where the first thread has
been made to exit by another one. -/
theorem scheduler_conservation_three : ∃ s, (Reachable Sparing s ∧ s.ready = [1, 3] ∧
    s.waiting (.other 0) = [2] ∧ s.exitQueue.threads = []) ∧ s.Conserved ∧
    ∀ a : Action, a.Due s → Permitted s a → (Conserves s a ↔ a.Spares s) := by
  obtain ⟨s, run, queues⟩ : ∃ s, Reachable Sparing s ∧ (s.ready = [1, 3] ∧
      s.waiting (.other 0) = [2] ∧ s.exitQueue.threads = []) :=
    exists_reachable Sparing 0 true [.invoke (.threadCreate 1), .invoke (.threadCreate 2),
      .invoke (.threadYield 2), .goOn, .invoke (.threadSleep (some (.other 0))), .goOn,
      .invoke (.threadExit 0), .invoke (.threadCreate 3)] (by decide +kernel)
  exact ⟨s, ⟨run, queues⟩, scheduler_conservation run⟩

/-- The first thread creates another one and calls `thread_exit` with its identifier. -/
theorem scheduler_conservation_faults : ∃ s, Reachable Permitted s ∧ s.ready = [0, 1] ∧
    (Action.invoke (.threadExit 1)).Due s ∧ Permitted s (.invoke (.threadExit 1)) ∧
    enter (.threadExit 1) [] s = .error .undefined ∧
    ¬ Conserves s (.invoke (.threadExit 1)) := by
  obtain ⟨s, run, ready, user, may, id, stack⟩ : ∃ s, Reachable Permitted s ∧ s.ready = [0, 1] ∧
      s.frames = [] ∧ Permitted s (.invoke (.threadExit 1)) ∧ s.id 1 = 1 ∧
      s.pStack 1 = some newStack :=
    exists_reachable Permitted 0 true [.invoke (.threadCreate 1)] (by decide +kernel)
  have due : (Action.invoke (.threadExit 1)).Due s := ⟨user, nofun⟩
  have member : 1 ∈ s.ready := ready ▸ List.mem_cons_of_mem _ List.mem_cons_self
  have faults : threadExit (s.id 1) [] s = .error .undefined :=
    threadExit_stack run.ok member (id ▸ may.1) stack []
  rw [id] at faults
  refine ⟨s, run, ready, due, may, faults, ?_⟩
  rintro ⟨s', step, _⟩
  cases step with
  | invoke _ _ runs => cases faults.symm.trans runs

end Ece344Lab.Threads
